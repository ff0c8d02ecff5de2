import TradingApp.Redis.RedisWriter

/-!
# Export and import of positions

One script writes every stored position to a file and drops two columns of
it, another reads the lines of such a file back into the store.  The columns
dropped are those that were last when a value had twelve of them; a value of
fifteen keeps thirteen, a form that reading does not know.
-/

namespace TradingApp.Redis

/-! ## The export -/

/-- `cut --complement -f 11-12 -d,`: a line without a comma stays as it is. -/
def cutColumns (line : Text) : Text :=
  let fields := line.splitOn ','
  if fields.length ≤ 1 then line else [','].intercalate (fields.take 10 ++ fields.drop 12)

/-! ## The import -/

/-- Where the shell stands while it splits a line. -/
inductive ReadMode where
  /-- at the start or after a comma -/
  | between
  | afterSpace
  /-- in a word, of which these characters have been read, the last one first -/
  | word (characters : Text)
deriving DecidableEq, Repr

/-- The words of a line, read from a mode on. -/
def readWords : ReadMode → Text → List Text
  | .word characters, [] => [characters.reverse]
  | .between, [] | .afterSpace, [] => []
  | mode, character :: rest =>
      if character = ',' then
        match mode with
        | .between => [] :: readWords .between rest
        | .afterSpace => readWords .between rest
        | .word characters => characters.reverse :: readWords .between rest
      else if character = ' ' then
        match mode with
        | .between => readWords .between rest
        | .afterSpace => readWords .afterSpace rest
        | .word characters => characters.reverse :: readWords .afterSpace rest
      else
        match mode with
        | .between | .afterSpace => readWords (.word [character]) rest
        | .word characters => readWords (.word (character :: characters)) rest

/-- `IFS=', ' read -r -a array`: words are separated by a comma, with any
spaces around it, or by spaces alone. -/
def readArray (line : Text) : List Text :=
  readWords .between line

/-- `${array[2]}':'${array[3]}`; a missing word is empty. -/
def importKey (line : Text) : Text :=
  let array := readArray line
  (array[2]?.getD []) ++ ':' :: (array[3]?.getD [])

/-- Exported and imported again, a position has its key and its fields. -/
def Reimports (entry : Entry) : Prop :=
  let line := cutColumns entry.text
  importKey line = entry.key ∧
    ∃ position, parseStem1Value line = some position ∧
      position.account = entry.user ∧ position.underlier = entry.symbol ∧
      position.quantity = entry.quantity ∧ position.price = entry.averagePrice ∧
      position.liveSharesBuy = entry.liveBuy ∧ position.liveSharesSell = entry.liveSell ∧
      position.totalExecutedShares = entry.totalExecuted

/-! ## What comes back -/

/-- A word without separators ends at the next comma. -/
theorem readWords_word (characters word rest : Text) (commaFree : ',' ∉ word)
    (spaceFree : ' ' ∉ word) :
    readWords (.word characters) (word ++ ',' :: rest) =
      (characters.reverse ++ word) :: readWords .between rest := by
  induction word generalizing characters with
  | nil =>
      rw [List.append_nil]
      rfl
  | cons character word ih =>
      rw [List.mem_cons, not_or] at commaFree spaceFree
      rw [List.cons_append, readWords, if_neg (Ne.symm commaFree.1), if_neg (Ne.symm spaceFree.1)]
      rw [ih _ commaFree.2 spaceFree.2, List.reverse_cons, List.append_assoc]
      rfl

theorem readWords_between (word rest : Text) (commaFree : ',' ∉ word) (spaceFree : ' ' ∉ word) :
    readWords .between (word ++ ',' :: rest) = word :: readWords .between rest := by
  cases word with
  | nil => rfl
  | cons character word =>
      rw [List.mem_cons, not_or] at commaFree spaceFree
      rw [List.cons_append, readWords, if_neg (Ne.symm commaFree.1), if_neg (Ne.symm spaceFree.1)]
      rw [readWords_word _ _ _ commaFree.2 spaceFree.2]
      rfl

namespace Entry

/-- The fields that the export keeps, thirteen of them. -/
def exported (entry : Entry) : List Text :=
  entry.fields.take 10 ++ entry.fields.drop 12

theorem exported_commaFree (entry : Entry) : ∀ field ∈ entry.exported, ',' ∉ field := by
  intro field member
  apply entry.fields_commaFree
  rcases List.mem_append.mp member with first | last
  · exact List.mem_of_mem_take first
  · exact List.mem_of_mem_drop last

theorem cutColumns_text (entry : Entry) :
    cutColumns entry.text = [','].intercalate entry.exported := by
  unfold cutColumns
  rw [entry.splitOn_text]
  rfl

/-- The import computes the key the entry had. -/
theorem importKey_cutColumns (entry : Entry) (userFree : ' ' ∉ entry.user)
    (symbolFree : ' ' ∉ entry.symbol) : importKey (cutColumns entry.text) = entry.key := by
  have commaFree := entry.commaFree
  have userComma : ',' ∉ entry.user := commaFree _ (by simp)
  have symbolComma : ',' ∉ entry.symbol := commaFree _ (by simp)
  let rest := [','].intercalate (entry.exported.drop 4)
  have line : cutColumns entry.text =
      equity ++ ',' :: ([] ++ ',' :: (entry.user ++ ',' :: (entry.symbol ++ ',' :: rest))) :=
    entry.cutColumns_text
  have words : readArray (cutColumns entry.text) =
      equity :: [] :: entry.user :: entry.symbol :: readWords .between rest := by
    unfold readArray
    rw [line, readWords_between equity _ (by decide) (by decide),
      readWords_between [] _ nofun nofun, readWords_between _ _ userComma userFree,
      readWords_between _ _ symbolComma symbolFree]
  unfold importKey
  rw [words]
  rfl

/-- Reading an exported line would index fields it does not have. -/
theorem parseStem1Value_cutColumns (entry : Entry) :
    parseStem1Value (cutColumns entry.text) = none := by
  have split : (cutColumns entry.text).splitOn ',' = entry.exported := by
    rw [cutColumns_text]
    exact List.splitOn_intercalate ',' entry.exported_commaFree (List.cons_ne_nil _ _)
  rw [parseStem1Value, split]
  rfl

end Entry

/-- An exported position comes back under its key, but as a value that cannot
be read. -/
theorem reimport_unreadable (entry : Entry) (userFree : ' ' ∉ entry.user)
    (symbolFree : ' ' ∉ entry.symbol) :
    importKey (cutColumns entry.text) = entry.key ∧ ¬ Reimports entry := by
  refine ⟨entry.importKey_cutColumns userFree symbolFree, ?_⟩
  rintro ⟨_, position, decodes, _⟩
  rw [entry.parseStem1Value_cutColumns] at decodes
  exact nomatch decodes

/-- Ten lots of a symbol at 5.25. -/
def tenLots : Entry where
  user := ['L']
  symbol := ['X']
  quantity := ['1', '0']
  averagePrice := ['5', '.', '2', '5']
  rif := ['0']
  pif := ['0']
  liveBuy := ['0']
  liveSell := ['0']
  totalExecuted := ['0']
  commaFree := by decide

theorem reimport_unreadable_tenLots :
    importKey (cutColumns tenLots.text) = tenLots.key ∧ ¬ Reimports tenLots :=
  reimport_unreadable tenLots (by decide) (by decide)

theorem not_reimports_tenLots : ¬ Reimports tenLots := by
  rintro ⟨_, position, decodes, _⟩
  rw [tenLots.parseStem1Value_cutColumns] at decodes
  exact nomatch decodes

end TradingApp.Redis
