import Trigger.Infra.SqlText
import Trigger.Infra.Text
import Trigger.Realtime.StreamReader
import Trigger.Tsql.Schema
import Trigger.Tsql.Sql

/-!
# realtime の where 句

`realtimeClient.server.ts` の `streamRuns`・`streamBatch` が Electric に渡す where 句と、`realtime.v1.runs`
の route が受け取る search parameter。

request の文字列は escape されずに literal の中へ書かれる。どの文字列も `'` を含まなければ、where 句を満たすのは、environment・
tag・時刻の条件をすべて満たす行だけである（`streamRuns_confined`）。`'` を含む tag は literal を閉じて、条件を書き加えられる。
-/

namespace Realtime

open Infra.SqlText
open Tsql (joinWith padZero civilFromDays)

/-! ## where 句 -/

/-- `RealtimeEnvironment` のうち、where 句に使うもの。 -/
structure RealtimeEnvironment where
  id : String

/-- `RealtimeRunsParams` の `tags`。`SearchParamsSchema` の変換で、空の文字列は無いものとする。 -/
def tagsParam : Option String → Option (List String)
  | none => none
  | some value =>
    if value = "" then none else some ((value.toList.splitOn ',').map String.ofList)

/-- `Date.prototype.toISOString`。引数は epoch からのミリ秒である。 -/
def toISOString (time : Int) : String :=
  let (year, month, day) := civilFromDays (time.fdiv 86400000)
  let ms := time.fmod 86400000
  (if 0 ≤ year ∧ year ≤ 9999 then padZero 4 year
    else (if year < 0 then "-" else "+") ++ padZero 6 year.natAbs) ++
  "-" ++ padZero 2 month ++ "-" ++ padZero 2 day ++ "T" ++ padZero 2 (ms / 3600000) ++ ":" ++
  padZero 2 (ms / 60000 % 60) ++ ":" ++ padZero 2 (ms / 1000 % 60) ++ "." ++
  padZero 3 (ms % 1000) ++ "Z"

example : toISOString 1709210096789 = "2024-02-29T12:34:56.789Z" := by decide +kernel

def environmentClause (environment : RealtimeEnvironment) : String :=
  "\"runtimeEnvironmentId\"='" ++ environment.id ++ "'"

def batchClause (batchId : String) : String := "\"batchId\"='" ++ batchId ++ "'"

def tagsClause (tags : List String) : String :=
  "\"runTags\" @> ARRAY[" ++ joinWith "," (tags.map fun t => "'" ++ t ++ "'") ++ "]"

def createdAtClause (createdAtFilter : Int) : String :=
  "\"createdAt\" > '" ++ toISOString createdAtFilter ++ "'"

/-- `streamRuns` の `whereClauses`。 -/
def runsClauses (environment : RealtimeEnvironment) (tags : Option (List String))
    (createdAtFilter : Option Int) : List String :=
  environmentClause environment :: (tags.map tagsClause).toList ++
    (createdAtFilter.map createdAtClause).toList

def streamRunsWhere (environment : RealtimeEnvironment) (tags : Option (List String))
    (createdAtFilter : Option Int) : String :=
  joinWith " AND " (runsClauses environment tags createdAtFilter)

def streamBatchWhere (environment : RealtimeEnvironment) (batchId : String) : String :=
  joinWith " AND " [environmentClause environment, batchClause batchId]

/-! ## `TaskRun` の行 -/

/-- where 句が読む列。ほかの列は `others` である。 -/
structure TaskRunRow where
  runtimeEnvironmentId : String
  batchId : Option String
  runTags : List String
  createdAt : Int
  others : Text → Option Value

/-- 無い値は `NULL` である。 -/
def optionalText : Option String → Value
  | some value => .text value.toList
  | none => .null

def TaskRunRow.column (row : TaskRunRow) (name : Text) : Option Value :=
  if name = "runtimeEnvironmentId".toList then some (.text row.runtimeEnvironmentId.toList)
  else if name = "batchId".toList then some (optionalText row.batchId)
  else if name = "runTags".toList then some (.texts (row.runTags.map String.toList))
  else if name = "createdAt".toList then some (.time row.createdAt)
  else row.others name

/-! ## 一つの条件 -/

/-- literal を閉じる文字を含まない。 -/
def NoQuote (s : String) : Prop := '\'' ∉ s.toList

instance (s : String) : Decidable (NoQuote s) := inferInstanceAs (Decidable (_ ∉ _))

theorem toList_append₃ (a b c : String) :
    (a ++ b ++ c).toList = a.toList ++ b.toList ++ c.toList := by
  rw [String.toList_append, String.toList_append]

/-- 列と文字列の比較。 -/
theorem reads_comparison {head : Text} {name op : Text}
    (hhead : ∀ acc, lexFrom ⟨.start, acc⟩ head = ⟨.text [], .symbol op :: .ident name :: acc⟩)
    {value : String} (h : NoQuote value) :
    Reads (head ++ value.toList ++ "'".toList) [.ident name, .symbol op, .text value.toList]
      (.compare op (.column name) (.text value.toList)) := by
  have hlex : ∀ acc, lexFrom ⟨.start, acc⟩ (head ++ value.toList ++ "'".toList) =
      ⟨.textQuote value.toList, .symbol op :: .ident name :: acc⟩ := by
    intro acc
    rw [lexFrom_append, lexFrom_append, hhead, lexFrom_text h]
    rfl
  refine ⟨fun acc => ?_, fun acc => ?_, fun n rest => rfl⟩
  · rw [hlex]
    rfl
  · rw [hlex]
    simp [finish]

/-- 引用した tag の字句。 -/
def itemTokens (tag : String) (tags : List String) : List Token :=
  .text tag.toList :: (tags.map String.toList).flatMap fun v => [.comma, .text v]

theorem lexFrom_quoted {value : String} (h : NoQuote value) (acc : List Token) :
    lexFrom ⟨.start, acc⟩ ("'" ++ value ++ "'").toList = ⟨.textQuote value.toList, acc⟩ := by
  rw [String.toList_append, String.toList_append, lexFrom_append, lexFrom_append]
  show lexFrom (lexFrom ⟨.text [], acc⟩ value.toList) ['\''] = _
  rw [lexFrom_text h]
  rfl

theorem lexFrom_items : ∀ (tag : String) (tags : List String), (∀ t ∈ tag :: tags, NoQuote t) →
    ∀ acc, lexFrom ⟨.start, acc⟩
        ((joinWith "," ((tag :: tags).map fun t => "'" ++ t ++ "'")).toList ++ "]".toList) =
      ⟨.start, .rbracket :: ((itemTokens tag tags).reverse ++ acc)⟩
  | tag, [], h, acc => by
    show lexFrom ⟨.start, acc⟩ (("'" ++ tag ++ "'").toList ++ "]".toList) = _
    rw [lexFrom_append, lexFrom_quoted (h tag List.mem_cons_self)]
    rfl
  | tag, t :: tags, h, acc => by
    have ih := lexFrom_items t tags (fun u hu => h u (List.mem_cons_of_mem tag hu))
      (.comma :: .text tag.toList :: acc)
    show lexFrom ⟨.start, acc⟩ (("'" ++ tag ++ "'" ++ "," ++
      joinWith "," ((t :: tags).map fun t => "'" ++ t ++ "'")).toList ++ "]".toList) = _
    rw [String.toList_append, String.toList_append, List.append_assoc, List.append_assoc,
      lexFrom_append, lexFrom_quoted (h tag List.mem_cons_self), lexFrom_append]
    refine ih.trans ?_
    simp [itemTokens]

theorem lexFrom_environment (acc : List Token) :
    lexFrom ⟨.start, acc⟩ "\"runtimeEnvironmentId\"='".toList =
      ⟨.text [], .symbol ['='] :: .ident "runtimeEnvironmentId".toList :: acc⟩ := rfl

theorem lexFrom_batch (acc : List Token) : lexFrom ⟨.start, acc⟩ "\"batchId\"='".toList =
    ⟨.text [], .symbol ['='] :: .ident "batchId".toList :: acc⟩ := rfl

theorem lexFrom_createdAt (acc : List Token) : lexFrom ⟨.start, acc⟩ "\"createdAt\" > '".toList =
    ⟨.text [], .symbol ['>'] :: .ident "createdAt".toList :: acc⟩ := rfl

theorem lexFrom_tags (acc : List Token) : lexFrom ⟨.start, acc⟩ "\"runTags\" @> ARRAY[".toList =
    ⟨.start, .lbracket :: .word ['a', 'r', 'r', 'a', 'y'] :: .symbol ['@', '>'] ::
      .ident "runTags".toList :: acc⟩ := rfl

theorem reads_environment {environment : RealtimeEnvironment} (h : NoQuote environment.id) :
    Reads (environmentClause environment).toList
      [.ident "runtimeEnvironmentId".toList, .symbol ['='], .text environment.id.toList]
      (.compare ['='] (.column "runtimeEnvironmentId".toList) (.text environment.id.toList)) :=
  .of_eq (toList_append₃ _ _ _) (reads_comparison lexFrom_environment h)

theorem reads_batch {batchId : String} (h : NoQuote batchId) :
    Reads (batchClause batchId).toList
      [.ident "batchId".toList, .symbol ['='], .text batchId.toList]
      (.compare ['='] (.column "batchId".toList) (.text batchId.toList)) :=
  .of_eq (toList_append₃ _ _ _) (reads_comparison lexFrom_batch h)

theorem reads_tags {tag : String} {tags : List String} (h : ∀ t ∈ tag :: tags, NoQuote t) :
    Reads (tagsClause (tag :: tags)).toList
      (.ident "runTags".toList :: .symbol ['@', '>'] :: .word ['a', 'r', 'r', 'a', 'y'] ::
        .lbracket :: (itemTokens tag tags ++ [Token.rbracket]))
      (.compare ['@', '>'] (.column "runTags".toList)
        (.array ((tag :: tags).map String.toList))) := by
  have hlex : ∀ acc, lexFrom ⟨.start, acc⟩ (tagsClause (tag :: tags)).toList =
      ⟨.start, .rbracket :: ((itemTokens tag tags).reverse ++ Token.lbracket ::
        .word ['a', 'r', 'r', 'a', 'y'] :: .symbol ['@', '>'] :: .ident "runTags".toList ::
          acc)⟩ := by
    intro acc
    refine (congrArg (lexFrom _) ((toList_append₃ _ _ _).trans (List.append_assoc _ _ _))).trans ?_
    exact (lexFrom_append _ _ _).trans
      ((congrArg (lexFrom · _) (lexFrom_tags acc)).trans (lexFrom_items tag tags h _))
  refine ⟨fun acc => ?_, fun acc => ?_, fun n rest => ?_⟩
  · rw [hlex]
    simp [lexStep, startStep, isSpace]
  · rw [hlex]
    simp [finish]
  · have hitems := parseItems_texts rest tag.toList (tags.map String.toList)
    have hprimary : parsePrimary (n + 1) (.word ['a', 'r', 'r', 'a', 'y'] :: .lbracket ::
        (itemTokens tag tags ++ Token.rbracket :: rest)) =
          some (.array ((tag :: tags).map String.toList), rest) := by
      rw [parsePrimary, itemTokens, hitems]
      rfl
    show (parsePrimary (n + 1) (.word ['a', 'r', 'r', 'a', 'y'] :: .lbracket ::
      (itemTokens tag tags ++ [Token.rbracket] ++ rest))).map _ = _
    rw [List.append_assoc, List.singleton_append, hprimary]
    rfl

/-! ## 時刻の文字列 -/

theorem NoQuote.append {s t : String} (hs : NoQuote s) (ht : NoQuote t) : NoQuote (s ++ t) := by
  rw [NoQuote, String.toList_append, List.mem_append]
  exact not_or.mpr ⟨hs, ht⟩

/-- 数の文字列は `'` を含まない。 -/
theorem noQuote_toString_int (n : Int) : NoQuote (toString n) := by
  have hnat : ∀ k : Nat, NoQuote (toString k) := fun k h =>
    absurd (Infra.Text.isDigit_of_mem_toString_nat h) (by decide)
  cases n with
  | ofNat k => exact hnat k
  | negSucc k => exact NoQuote.append (s := "-") (by decide) (hnat (k + 1))

theorem noQuote_padZero (width : Nat) (n : Int) : NoQuote (padZero width n) := by
  refine NoQuote.append (fun h => ?_) (noQuote_toString_int n)
  rw [String.toList_ofList] at h
  exact absurd (List.eq_of_mem_replicate h) (by decide)

theorem noQuote_toISOString (time : Int) : NoQuote (toISOString time) := by
  have hyear : ∀ year : Int, NoQuote (if 0 ≤ year ∧ year ≤ 9999 then padZero 4 year
      else (if year < 0 then "-" else "+") ++ padZero 6 year.natAbs) := by
    intro year
    split
    · exact noQuote_padZero 4 year
    · refine .append ?_ (noQuote_padZero 6 _)
      split
      · decide
      · decide
  unfold toISOString
  rcases civilFromDays (time.fdiv 86400000) with ⟨year, month, day⟩
  dsimp only
  refine .append (.append (.append (.append (.append (.append (.append (.append (.append (.append
    (.append (.append (.append (hyear year) (by decide)) (noQuote_padZero _ _)) (by decide))
    (noQuote_padZero _ _)) (by decide)) (noQuote_padZero _ _)) (by decide)) (noQuote_padZero _ _))
    (by decide)) (noQuote_padZero _ _)) (by decide)) (noQuote_padZero _ _)) (by decide)

theorem reads_createdAt (createdAtFilter : Int) :
    Reads (createdAtClause createdAtFilter).toList
      [.ident "createdAt".toList, .symbol ['>'], .text (toISOString createdAtFilter).toList]
      (.compare ['>'] (.column "createdAt".toList)
        (.text (toISOString createdAtFilter).toList)) :=
  .of_eq (toList_append₃ _ _ _) (reads_comparison lexFrom_createdAt (noQuote_toISOString _))

theorem toList_joinWith : ∀ clauses : List String,
    (joinWith " AND " clauses).toList = joinAnd (clauses.map String.toList)
  | [] => rfl
  | [_] => rfl
  | s :: t :: rest => by
    refine (toList_append₃ s " AND " (joinWith " AND " (t :: rest))).trans ?_
    exact congrArg (s.toList ++ " AND ".toList ++ ·) (toList_joinWith (t :: rest))

/-! ## 行の評価 -/

variable {timestamp : Text → Option Int} {row : TaskRunRow}

theorem column_environment : row.column "runtimeEnvironmentId".toList =
    some (.text row.runtimeEnvironmentId.toList) := if_pos rfl

theorem column_batchId : row.column "batchId".toList = some (optionalText row.batchId) := by
  rw [TaskRunRow.column, if_neg (by decide), if_pos rfl]

theorem column_runTags : row.column "runTags".toList =
    some (.texts (row.runTags.map String.toList)) := by
  rw [TaskRunRow.column, if_neg (by decide), if_neg (by decide), if_pos rfl]

theorem column_createdAt : row.column "createdAt".toList = some (.time row.createdAt) := by
  rw [TaskRunRow.column, if_neg (by decide), if_neg (by decide), if_neg (by decide), if_pos rfl]

theorem eval_environment {id : String} : eval timestamp row.column
    (.compare ['='] (.column "runtimeEnvironmentId".toList) (.text id.toList)) =
      some (.bool true) ↔ row.runtimeEnvironmentId = id := by
  rw [eval, eval, eval, column_environment]
  simp [coerce, compareValues, String.toList_inj]

theorem eval_batch {batchId : String} : eval timestamp row.column
    (.compare ['='] (.column "batchId".toList) (.text batchId.toList)) =
      some (.bool true) ↔ row.batchId = some batchId := by
  rw [eval, eval, eval, column_batchId]
  cases row.batchId <;> simp [optionalText, coerce, compareValues, String.toList_inj]

theorem eval_tags {tags : List String} : eval timestamp row.column
    (.compare ['@', '>'] (.column "runTags".toList) (.array (tags.map String.toList))) =
      some (.bool true) ↔ ∀ t ∈ tags, t ∈ row.runTags := by
  rw [eval, eval, eval, column_runTags]
  simp [coerce, compareValues, String.toList_inj]

theorem eval_createdAt {createdAtFilter : Int}
    (hread : timestamp (toISOString createdAtFilter).toList = some createdAtFilter) :
    eval timestamp row.column (.compare ['>'] (.column "createdAt".toList)
      (.text (toISOString createdAtFilter).toList)) = some (.bool true) ↔
        createdAtFilter < row.createdAt := by
  rw [eval, eval, eval, column_createdAt]
  simp [coerce, compareValues, hread]

/-! ## 主定理 -/

/-- 一つの条件の文字列、字句、式。 -/
def environmentTriple (environment : RealtimeEnvironment) : Clause :=
  ((environmentClause environment).toList,
    [.ident "runtimeEnvironmentId".toList, .symbol ['='], .text environment.id.toList],
    .compare ['='] (.column "runtimeEnvironmentId".toList) (.text environment.id.toList))

def tagsTriple (tag : String) (tags : List String) : Clause :=
  ((tagsClause (tag :: tags)).toList,
    .ident "runTags".toList :: .symbol ['@', '>'] :: .word ['a', 'r', 'r', 'a', 'y'] ::
      .lbracket :: (itemTokens tag tags ++ [Token.rbracket]),
    .compare ['@', '>'] (.column "runTags".toList) (.array ((tag :: tags).map String.toList)))

def createdAtTriple (createdAtFilter : Int) : Clause :=
  ((createdAtClause createdAtFilter).toList,
    [.ident "createdAt".toList, .symbol ['>'], .text (toISOString createdAtFilter).toList],
    .compare ['>'] (.column "createdAt".toList) (.text (toISOString createdAtFilter).toList))

def batchTriple (batchId : String) : Clause :=
  ((batchClause batchId).toList,
    [.ident "batchId".toList, .symbol ['='], .text batchId.toList],
    .compare ['='] (.column "batchId".toList) (.text batchId.toList))

theorem createdAtTriple_fst (createdAtFilter : Int) :
    (createdAtTriple createdAtFilter).1 = (createdAtClause createdAtFilter).toList := by
  unfold createdAtTriple
  dsimp only

/-- 三つの成分の間の関係。 -/
def Read (c : Clause) : Prop := Reads c.1 c.2.1 c.2.2

theorem read_environment {environment : RealtimeEnvironment} (h : NoQuote environment.id) :
    Read (environmentTriple environment) := by
  unfold Read environmentTriple
  dsimp only
  exact reads_environment h

theorem read_tags {tag : String} {tags : List String} (h : ∀ t ∈ tag :: tags, NoQuote t) :
    Read (tagsTriple tag tags) := by
  unfold Read tagsTriple
  dsimp only
  exact reads_tags h

theorem read_createdAt (createdAtFilter : Int) : Read (createdAtTriple createdAtFilter) := by
  unfold Read createdAtTriple
  dsimp only
  exact reads_createdAt createdAtFilter

theorem read_batch {batchId : String} (h : NoQuote batchId) : Read (batchTriple batchId) := by
  unfold Read batchTriple
  dsimp only
  exact reads_batch h

/-- route の渡す tag は、空の並びではない。 -/
theorem tagsParam_cases (value : Option String) :
    tagsParam value = none ∨ ∃ tag tags, tagsParam value = some (tag :: tags) := by
  cases value with
  | none => exact .inl rfl
  | some value =>
    unfold tagsParam
    dsimp only
    split
    · exact .inl rfl
    · cases h : value.toList.splitOn ',' with
      | nil => exact absurd h (List.splitOn_ne_nil _ _)
      | cons tag tags => exact .inr ⟨_, _, rfl⟩

theorem streamRuns_satisfies_iff {environment : RealtimeEnvironment} (henv : NoQuote environment.id)
    {tagsValue : Option String} (htags : ∀ tags ∈ tagsParam tagsValue, ∀ t ∈ tags, NoQuote t)
    {createdAtFilter : Option Int}
    (hread : ∀ d ∈ createdAtFilter, timestamp (toISOString d).toList = some d) :
    Satisfies timestamp row.column
        (streamRunsWhere environment (tagsParam tagsValue) createdAtFilter).toList ↔
      row.runtimeEnvironmentId = environment.id ∧
        (∀ tags ∈ tagsParam tagsValue, ∀ t ∈ tags, t ∈ row.runTags) ∧
        ∀ d ∈ createdAtFilter, d < row.createdAt := by
  rw [streamRunsWhere, toList_joinWith]
  -- 時刻の条件
  have htime : ∀ d ∈ createdAtFilter, eval timestamp row.column (createdAtTriple d).2.2 =
      some (.bool true) ↔ d < row.createdAt := fun d hd => eval_createdAt (hread d hd)
  rcases tagsParam_cases tagsValue with hparam | ⟨tag, tags, hparam⟩
  · rw [hparam]
    have hreads : ∀ c ∈ environmentTriple environment ::
        (createdAtFilter.map createdAtTriple).toList, Read c := by
      intro c hc
      rcases List.mem_cons.mp hc with rfl | hc
      · exact read_environment henv
      · obtain ⟨d, -, rfl⟩ := Option.map_eq_some_iff.mp (Option.mem_toList.mp hc)
        exact read_createdAt d
    have hclauses : (runsClauses environment none createdAtFilter).map String.toList =
        (environmentTriple environment :: (createdAtFilter.map createdAtTriple).toList).map
          Prod.fst := by
      cases createdAtFilter with
      | none => rfl
      | some d => exact congrArg (_ :: [·]) (createdAtTriple_fst d).symm
    rw [hclauses, satisfies_joinAnd_iff hreads, List.forall_mem_cons]
    refine and_congr eval_environment ?_
    rw [and_iff_right (by simp)]
    cases createdAtFilter with
    | none => simp
    | some d => simpa using htime d rfl
  · rw [hparam] at htags ⊢
    have hreads : ∀ c ∈ environmentTriple environment :: tagsTriple tag tags ::
        (createdAtFilter.map createdAtTriple).toList, Read c := by
      intro c hc
      rcases List.mem_cons.mp hc with rfl | hc
      · exact read_environment henv
      · rcases List.mem_cons.mp hc with rfl | hc
        · exact read_tags (htags _ rfl)
        · obtain ⟨d, -, rfl⟩ := Option.map_eq_some_iff.mp (Option.mem_toList.mp hc)
          exact read_createdAt d
    have hclauses : (runsClauses environment (some (tag :: tags)) createdAtFilter).map
        String.toList = (environmentTriple environment :: tagsTriple tag tags ::
          (createdAtFilter.map createdAtTriple).toList).map Prod.fst := by
      cases createdAtFilter with
      | none => rfl
      | some d => exact congrArg (_ :: _ :: [·]) (createdAtTriple_fst d).symm
    rw [hclauses, satisfies_joinAnd_iff hreads, List.forall_mem_cons, List.forall_mem_cons]
    refine and_congr eval_environment (and_congr (eval_tags.trans (by simp)) ?_)
    cases createdAtFilter with
    | none => simp
    | some d => simpa using htime d rfl

theorem streamBatch_satisfies_iff {environment : RealtimeEnvironment}
    (henv : NoQuote environment.id) {batchId : String} (hbatch : NoQuote batchId) :
    Satisfies timestamp row.column (streamBatchWhere environment batchId).toList ↔
      row.runtimeEnvironmentId = environment.id ∧ row.batchId = some batchId := by
  have hreads : ∀ c ∈ [environmentTriple environment, batchTriple batchId], Read c := by
    intro c hc
    rcases List.mem_cons.mp hc with rfl | hc
    · exact read_environment henv
    · obtain rfl := List.mem_singleton.mp hc
      exact read_batch hbatch
  rw [streamBatchWhere, toList_joinWith]
  refine (satisfies_joinAnd_iff hreads).trans ?_
  rw [List.forall_mem_cons, List.forall_mem_singleton]
  exact and_congr eval_environment eval_batch

/--
**environment と tag と batch の文字列が `'` を含まなければ、where 句を満たすのは、その environment の、求めた tag をすべて
持つ、時刻より後の（その batch の）行だけである。**
-/
theorem realtime_where_confined (timestamp : Text → Option Int)
    (environment : RealtimeEnvironment) (henv : NoQuote environment.id) (row : TaskRunRow) :
    (∀ (tagsValue : Option String) (createdAtFilter : Option Int),
      (∀ d ∈ createdAtFilter, timestamp (toISOString d).toList = some d) →
      (∀ tags ∈ tagsParam tagsValue, ∀ t ∈ tags, NoQuote t) →
      (Satisfies timestamp row.column
          (streamRunsWhere environment (tagsParam tagsValue) createdAtFilter).toList ↔
        row.runtimeEnvironmentId = environment.id ∧
          (∀ tags ∈ tagsParam tagsValue, ∀ t ∈ tags, t ∈ row.runTags) ∧
          ∀ d ∈ createdAtFilter, d < row.createdAt)) ∧
    ∀ batchId : String, NoQuote batchId →
      (Satisfies timestamp row.column (streamBatchWhere environment batchId).toList ↔
        row.runtimeEnvironmentId = environment.id ∧ row.batchId = some batchId) :=
  ⟨fun _ _ hread htags => streamRuns_satisfies_iff henv htags hread,
    fun _ hbatch => streamBatch_satisfies_iff henv hbatch⟩

/-- 一つの文字列だけを時刻と読む。 -/
def epochTimestamp (s : Text) : Option Int :=
  if s = "1970-01-01T00:00:00.000Z".toList then some 0 else none

/-- 二つの environment の行。 -/
def otherRow : TaskRunRow := ⟨"env_2", some "batch_1", ["x"], 1, fun _ => none⟩

theorem realtime_where_epoch :
    (Satisfies epochTimestamp otherRow.column
        (streamRunsWhere ⟨"env_1"⟩ (tagsParam (some "x,y")) (some 0)).toList ↔
      otherRow.runtimeEnvironmentId = "env_1" ∧
        (∀ tags ∈ tagsParam (some "x,y"), ∀ t ∈ tags, t ∈ otherRow.runTags) ∧
        ∀ d ∈ some (0 : Int), d < otherRow.createdAt) ∧
    (Satisfies epochTimestamp otherRow.column (streamBatchWhere ⟨"env_1"⟩ "batch_1").toList ↔
      otherRow.runtimeEnvironmentId = "env_1" ∧ otherRow.batchId = some "batch_1") := by
  have hread : ∀ d ∈ some (0 : Int), epochTimestamp (toISOString d).toList = some d := by
    decide +kernel
  have htags : ∀ tags ∈ tagsParam (some "x,y"), ∀ t ∈ tags, NoQuote t := by
    decide +kernel
  have h := realtime_where_confined epochTimestamp ⟨"env_1"⟩ (by decide) otherRow
  exact ⟨h.1 (some "x,y") (some 0) hread htags, h.2 "batch_1" (by decide)⟩

/-- literal を閉じて条件を書き加える tag は、別の environment の行も選ぶ。 -/
theorem realtime_where_escaped :
    Satisfies epochTimestamp otherRow.column
        (streamRunsWhere ⟨"env_1"⟩ (tagsParam (some "x'] OR \"runTags\" @> ARRAY['x"))
          none).toList ∧
      otherRow.runtimeEnvironmentId ≠ "env_1" := by
  decide +kernel

end Realtime
