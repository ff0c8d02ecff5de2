import TradingApp.Position.PartialFill
import TradingApp.Position.Average
import TradingApp.Position.Repackaging
import TradingApp.Account.Tranch
import TradingApp.Account.PartialOpen
import TradingApp.Instance.Agreement
import TradingApp.Instance.Restart
import TradingApp.Instance.Triggers
import TradingApp.Instance.PanicClose
import TradingApp.Instance.Stopping
import TradingApp.Instance.RecordedPrice
import TradingApp.Instance.SoftClose
import TradingApp.Instance.Pending
import TradingApp.Instance.HedgeUnits
import TradingApp.Instance.Requote
import TradingApp.Instance.Residual
import TradingApp.Instance.MarketData
import TradingApp.Market.Symbol
import TradingApp.Market.Bars
import TradingApp.Market.SymbolManager
import TradingApp.Redis.OrderRecord
import TradingApp.Redis.Transfer
import TradingApp.Orders.Booking
import TradingApp.Orders.Chains
import TradingApp.Orders.Completion
import TradingApp.Orders.Failures
import TradingApp.Orders.Handover
import TradingApp.Orders.Counters
import TradingApp.Orders.OrderAccount
import TradingApp.Orders.Wakeups
import TradingApp.Orders.WellFormed
import TradingApp.Command.CommandLine
import TradingApp.Market.Gate
import TradingApp.Command.Control
import TradingApp.Threads.Progress
import TradingApp.Instance.Recovery
import TradingApp.Redis.Keyspace
import TradingApp.Instance.CloseMode
import TradingApp.Position.Equity
import TradingApp.Instance.Finish
import TradingApp.Instance.Answers
import TradingApp.Instance.SharedStore
import TradingApp.Instance.SingleUser
import TradingApp.Market.Avicenna
import TradingApp.Startup.Manager
