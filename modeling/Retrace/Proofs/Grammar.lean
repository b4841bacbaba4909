import Mathlib.Data.List.Forall2
import Retrace.Proofs.Script

/-!
# The forms of statements

Each keyword has a form that says how many words may stand after it (`Fits`) and what they mean (`Form`). A line that is
not blank but for a comment falls into a keyword, other words and perhaps the mark of the background (`Cut`), and it is
read as the statement whose form its words have, or refused with its number. There is one exception: `stack` reads its
first word and passes over the others, and the keywords without fields pass over all words (`Drops`). Such lines are read
although their words have no form, and no others are.
-/

namespace Retrace

open Text (Blank Solid Spaced Plain)

namespace Statement

variable {keyword word : String} {words : List String} {statement : Statement} {problem : StatementError}

/-! ### Forms -/

def bareKeywords : List String := ["history", "wait", "balances", "clear", "scopes"]

def countedKeywords : List (String × Nat) := [("set", 3), ("add", 3), ("get", 2), ("jump", 1), ("limit", 1)]

def Fits (keyword : String) (count : Nat) : Prop :=
  match keyword with
  | "set" | "add" => count = 3
  | "get" => count = 2
  | "jump" | "limit" => count = 1
  | "stack" => count ≤ 1
  | "undo" | "redo" | "queued" => True
  | "history" | "wait" | "balances" | "clear" | "scopes" => count = 0
  | _ => False

inductive Form : String → List String → Statement → Prop
  | set (scope account word : String) {value : Int64} (hvalue : Text.signed64? word.toList = some value) :
      Form "set" [scope, account, word] (.set scope account value)
  | add (scope account word : String) {delta : Int64} (hdelta : Text.signed64? word.toList = some delta) :
      Form "add" [scope, account, word] (.add scope account delta)
  | get (scope account : String) : Form "get" [scope, account] (.get scope account)
  | undo (words : List String) : Form "undo" words (.undo (joined? words))
  | redo (words : List String) : Form "redo" words (.redo (joined? words))
  | nowhere (word : String) (hnone : isNone word = true) : Form "jump" [word] (.jump none)
  | jump (word : String) (hsome : isNone word = false) {index : UInt64}
      (hindex : Text.unsigned64? word.toList = some index) : Form "jump" [word] (.jump (some index))
  | sameStack : Form "stack" [] (.stack none)
  | stack (id : String) : Form "stack" [id] (.stack (some id))
  | limit (word : String) {count : UInt64} (hcount : Text.unsigned64? word.toList = some count) :
      Form "limit" [word] (.limit count)
  | history : Form "history" [] .history
  | queued (words : List String) : Form "queued" words (.queued (joined? words))
  | wait : Form "wait" [] .wait
  | balances : Form "balances" [] .balances
  | clear : Form "clear" [] .clear
  | scopes : Form "scopes" [] .scopes

/-- A word and a field of a statement that say the same: they are the same text, or the same number, however it is
written, or both say that there is no index. -/
inductive Echoes : String → List Char → Prop
  | same (word : String) : Echoes word word.toList
  | signed (word : String) {value : Int64} (hvalue : Text.signed64? word.toList = some value) :
      Echoes word (toString value.toInt).toList
  | unsigned (word : String) {value : UInt64} (hvalue : Text.unsigned64? word.toList = some value) :
      Echoes word (toString value.toNat).toList
  | nowhere (word : String) (hnone : isNone word = true) : Echoes word "none".toList

private theorem Form.fits (hform : Form keyword words statement) : Fits keyword words.length := by
  cases hform <;> simp [Fits]

theorem echoes_of_plain (hplain : ∀ text ∈ statement.words.tail, Plain text.toList)
    (hechoes : List.Forall₂ (fun word text => Echoes word text.toList) words statement.words.tail) :
    List.Forall₂ Echoes words statement.fields := by
  rw [fields, flatMap_splitOn hplain, List.forall₂_map_right_iff]
  exact hechoes

theorem echoes_of_joined {form : Option String → Statement} (hplain : ∀ word ∈ words, Plain word.toList)
    (hfields : (form (joined? words)).words.tail = (joined? words).toList) :
    List.Forall₂ Echoes words (form (joined? words)).fields := by
  rw [fields, hfields, flatMap_splitOn_joined? fun word hmem => (hplain word hmem).1, List.forall₂_map_right_iff,
    List.forall₂_same]
  exact fun word _ => .same word

theorem Form.echoes (hform : Form keyword words statement) (hplain : ∀ word ∈ words, Plain word.toList) :
    List.Forall₂ Echoes words statement.fields := by
  cases hform with
  | set scope account word hvalue =>
    simp only [List.forall_mem_cons] at hplain
    refine echoes_of_plain ?_ (.cons (.same scope) (.cons (.same account) (.cons (.signed word hvalue) .nil)))
    simp only [Statement.words, List.tail_cons, List.forall_mem_cons]
    exact ⟨hplain.1, hplain.2.1, Text.plain_toString_int _, List.forall_mem_nil _⟩
  | add scope account word hdelta =>
    simp only [List.forall_mem_cons] at hplain
    refine echoes_of_plain ?_ (.cons (.same scope) (.cons (.same account) (.cons (.signed word hdelta) .nil)))
    simp only [Statement.words, List.tail_cons, List.forall_mem_cons]
    exact ⟨hplain.1, hplain.2.1, Text.plain_toString_int _, List.forall_mem_nil _⟩
  | get scope account => exact echoes_of_plain hplain (.cons (.same scope) (.cons (.same account) .nil))
  | undo | redo | queued => exact echoes_of_joined hplain rfl
  | nowhere word hnone => exact echoes_of_plain (by decide) (.cons (.nowhere word hnone) .nil)
  | jump word _ hindex =>
    exact echoes_of_plain (List.forall_mem_singleton.mpr (Text.plain_toString_nat _)) (.cons (.unsigned word hindex) .nil)
  | stack id => exact echoes_of_plain hplain (.cons (.same id) .nil)
  | limit word hcount =>
    exact echoes_of_plain (List.forall_mem_singleton.mpr (Text.plain_toString_nat _)) (.cons (.unsigned word hcount) .nil)
  | _ => exact echoes_of_plain (List.forall_mem_nil _) .nil

/-! ### Words that are read -/

def kept (keyword : String) (words : List String) : List String :=
  if keyword = "stack" then words.take 1 else if keyword ∈ bareKeywords then [] else words

def Drops (keyword : String) (words : List String) : Prop :=
  keyword = "stack" ∧ 1 < words.length ∨ keyword ∈ bareKeywords ∧ words ≠ []

private theorem kept_of_not_drops (hall : ¬ Drops keyword words) : kept keyword words = words := by
  unfold Drops at hall
  rw [not_or, not_and, not_and_not_right] at hall
  unfold kept
  split_ifs with hstack hbare
  · exact List.take_of_length_le (Nat.le_of_not_lt (hall.1 hstack))
  · exact (hall.2 hbare).symm
  · rfl

theorem Drops.not_fits (hdrops : Drops keyword words) : ¬ Fits keyword words.length := by
  rcases hdrops with ⟨rfl, hmany⟩ | ⟨hbare, hsome⟩
  · simpa [Fits] using hmany
  · have hlength : words.length ≠ 0 := mt List.length_eq_zero_iff.mp hsome
    simp only [bareKeywords, List.mem_cons, List.not_mem_nil, or_false] at hbare
    rcases hbare with rfl | rfl | rfl | rfl | rfl <;> exact hlength

theorem kept_eq (hkeyword : keyword ∉ "stack" :: bareKeywords) (words : List String) : kept keyword words = words := by
  rw [List.mem_cons, not_or] at hkeyword
  rw [kept, if_neg hkeyword.1, if_neg hkeyword.2]

theorem kept_bare (hbare : keyword ∈ bareKeywords) (words : List String) : kept keyword words = [] := by
  have hother : keyword ≠ "stack" := by
    rintro rfl
    exact absurd hbare (by decide)
  rw [kept, if_neg hother, if_pos hbare]

inductive Fault (keyword : String) (words : List String) : StatementError → Prop where
  | unknown (hunknown : keyword ∉ keywords) : Fault keyword words (.unknownKeyword keyword)
  | count {expected : Nat} (hcounted : (keyword, expected) ∈ countedKeywords) (hcount : words.length ≠ expected) :
      Fault keyword words (.wrongCount keyword expected words.length)
  | number {scope account word : String} (hkeyword : keyword = "set" ∨ keyword = "add")
      (hwords : words = [scope, account, word]) (hnone : Text.signed64? word.toList = none) :
      Fault keyword words (.badNumber word)
  | index {word : String} (hkeyword : keyword = "jump") (hwords : words = [word]) (hsome : isNone word = false)
      (hnone : Text.unsigned64? word.toList = none) : Fault keyword words (.badIndex word)
  | limit {word : String} (hkeyword : keyword = "limit") (hwords : words = [word])
      (hnone : Text.unsigned64? word.toList = none) : Fault keyword words (.badLimit word)

inductive Read (keyword : String) (words : List String) : Except StatementError Statement → Prop where
  | form {statement : Statement} (hform : Form keyword (kept keyword words) statement) : Read keyword words (.ok statement)
  | fault {problem : StatementError} (hfault : Fault keyword words problem) : Read keyword words (.error problem)

theorem read_number {make : Int64 → Statement} {scope account : String} (hkeyword : keyword = "set" ∨ keyword = "add")
    (hform : ∀ value, Text.signed64? word.toList = some value → Form keyword [scope, account, word] (make value)) :
    Read keyword [scope, account, word] ((number word).map make) := by
  rw [number]
  cases hvalue : Text.signed64? word.toList with
  | none => exact .fault (.number hkeyword rfl hvalue)
  | some value =>
    refine .form ?_
    rw [kept_eq (by rcases hkeyword with rfl | rfl <;> decide)]
    exact hform value hvalue

private theorem read_index (word : String) : Read "jump" [word] ((index word).map jump) := by
  rw [index]
  split_ifs with hnone
  · exact .form (.nowhere word hnone)
  · have hsome := Bool.eq_false_iff.mpr hnone
    cases hindex : Text.unsigned64? word.toList with
    | none => exact .fault (.index rfl rfl hsome hindex)
    | some index => exact .form (.jump word hsome hindex)

private theorem read_bound (word : String) : Read "limit" [word] ((bound word).map limit) := by
  rw [bound]
  cases hcount : Text.unsigned64? word.toList with
  | none => exact .fault (.limit rfl rfl hcount)
  | some count => exact .form (.limit word hcount)

theorem read_joined {form : Option String → Statement} (hkeyword : keyword ∉ "stack" :: bareKeywords)
    (hform : Form keyword words (form (joined? words))) : Read keyword words (.ok (form (joined? words))) :=
  .form (by rwa [kept_eq hkeyword])

private theorem read_bare (hbare : keyword ∈ bareKeywords) (hform : Form keyword [] statement) :
    Read keyword words (.ok statement) :=
  .form (by rwa [kept_bare hbare])

private theorem read_stack (words : List String) : Read "stack" words (.ok (.stack words.head?)) := by
  refine .form ?_
  rw [kept, if_pos rfl]
  cases words with
  | nil => exact .sameStack
  | cons first rest => exact .stack first

theorem read_ofWords (keyword : String) (words : List String) : Read keyword words (ofWords keyword words) := by
  unfold ofWords
  dsimp only
  split
  · -- `set`
    split
    · exact read_number (.inl rfl) fun value hvalue => .set _ _ _ hvalue
    · next hother =>
      refine .fault (.count (by decide) fun hlength => ?_)
      obtain ⟨scope, account, word, hwords⟩ := List.length_eq_three.mp hlength
      exact hother scope account word hwords
  · -- `add`
    split
    · exact read_number (.inr rfl) fun delta hdelta => .add _ _ _ hdelta
    · next hother =>
      refine .fault (.count (by decide) fun hlength => ?_)
      obtain ⟨scope, account, word, hwords⟩ := List.length_eq_three.mp hlength
      exact hother scope account word hwords
  · -- `get`
    split
    · exact .form (.get _ _)
    · next hother =>
      refine .fault (.count (by decide) fun hlength => ?_)
      obtain ⟨scope, account, hwords⟩ := List.length_eq_two.mp hlength
      exact hother scope account hwords
  · exact read_joined (by decide) (.undo words)
  · exact read_joined (by decide) (.redo words)
  · -- `jump`
    split
    · exact read_index _
    · next hother =>
      refine .fault (.count (by decide) fun hlength => ?_)
      obtain ⟨word, hwords⟩ := List.length_eq_one_iff.mp hlength
      exact hother word hwords
  · exact read_stack words
  · -- `limit`
    split
    · exact read_bound _
    · next hother =>
      refine .fault (.count (by decide) fun hlength => ?_)
      obtain ⟨word, hwords⟩ := List.length_eq_one_iff.mp hlength
      exact hother word hwords
  · exact read_bare (by decide) .history
  · exact read_joined (by decide) (.queued words)
  · exact read_bare (by decide) .wait
  · exact read_bare (by decide) .balances
  · exact read_bare (by decide) .clear
  · exact read_bare (by decide) .scopes
  · refine .fault (.unknown ?_)
    simp only [keywords, List.mem_cons, List.not_mem_nil, or_false, not_or]
    and_intros <;> assumption

theorem ofWords_of_form (hform : Form keyword (kept keyword words) statement) : ofWords keyword words = .ok statement := by
  generalize hkept : kept keyword words = read at hform
  cases hform with
  | @set scope account word value hvalue =>
    rw [kept_eq (by decide)] at hkept
    subst hkept
    have hnumber : number word = .ok value := by rw [number, hvalue]
    exact congrArg (Except.map (Statement.set scope account)) hnumber
  | @add scope account word delta hdelta =>
    rw [kept_eq (by decide)] at hkept
    subst hkept
    have hnumber : number word = .ok delta := by rw [number, hdelta]
    exact congrArg (Except.map (Statement.add scope account)) hnumber
  | nowhere word hnone =>
    rw [kept_eq (by decide)] at hkept
    subst hkept
    have hindex : index word = .ok none := by rw [index, if_pos hnone]
    exact congrArg (Except.map Statement.jump) hindex
  | @jump word hsome position hposition =>
    rw [kept_eq (by decide)] at hkept
    subst hkept
    have hindex : index word = .ok (some position) := by rw [index, if_neg (by simp [hsome]), hposition]
    exact congrArg (Except.map Statement.jump) hindex
  | @limit word count hcount =>
    rw [kept_eq (by decide)] at hkept
    subst hkept
    have hbound : bound word = .ok count := by rw [bound, hcount]
    exact congrArg (Except.map Statement.limit) hbound
  | get | undo | redo | queued =>
    rw [kept_eq (by decide)] at hkept
    subst hkept
    rfl
  | sameStack | stack =>
    rw [kept, if_pos rfl] at hkept
    cases words with
    | nil => cases hkept <;> rfl
    | cons => cases hkept <;> rfl
  | _ => rfl

theorem ofWords_eq_ok_iff : ofWords keyword words = .ok statement ↔ Form keyword (kept keyword words) statement := by
  refine ⟨fun hread => ?_, ofWords_of_form⟩
  have hcases := read_ofWords keyword words
  rw [hread] at hcases
  cases hcases with
  | form hform => exact hform

private theorem Fault.of_error (hread : ofWords keyword words = .error problem) : Fault keyword words problem := by
  have hcases := read_ofWords keyword words
  rw [hread] at hcases
  cases hcases with
  | fault hfault => exact hfault

theorem Drops.exists_form (hdrops : Drops keyword words) : ∃ statement, Form keyword (kept keyword words) statement := by
  rcases hdrops with ⟨rfl, hmany⟩ | ⟨hbare, -⟩
  · exact ⟨_, ofWords_eq_ok_iff.mp (show ofWords "stack" words = .ok (.stack words.head?) from rfl)⟩
  · rw [kept_bare hbare]
    simp only [bareKeywords, List.mem_cons, List.not_mem_nil, or_false] at hbare
    rcases hbare with rfl | rfl | rfl | rfl | rfl
    · exact ⟨_, .history⟩
    · exact ⟨_, .wait⟩
    · exact ⟨_, .balances⟩
    · exact ⟨_, .clear⟩
    · exact ⟨_, .scopes⟩

end Statement

/-! ### Lines -/

namespace ScriptLine

variable {raw text : List Char} {words : List String} {inBackground : Bool} {number : Nat}

/-- How a line falls apart: words with any blanks around and between them, the mark if the line is in the background, and
perhaps a comment. There may be a mark and no words. The last character of the words is never taken for a mark. -/
inductive Cut : List Char → List String → Bool → Prop
  | words {lead body mark trail comment : List Char} {words : List String} {inBackground : Bool} (hlead : Blank lead)
      (hbody : Spaced (words.map String.toList) body) (hplain : ∀ word ∈ words, Plain word.toList)
      (hmark : Mark inBackground mark)
      (hunmarked : inBackground = false → ∀ last ∈ words.getLast?, last.toList.getLast? ≠ some '&')
      (htrail : Blank trail) (hcomment : Comment comment) :
      Cut (lead ++ body ++ mark ++ trail ++ comment) words inBackground
  | mark {lead trail comment : List Char} (hlead : Blank lead) (htrail : Blank trail) (hcomment : Comment comment) :
      Cut (lead ++ ['&'] ++ trail ++ comment) [] true

/-- The keyword among the words of a line: the first of them, in small letters. -/
def keywordOf (words : List String) : String := String.ofList (Text.lowercase (words.headD "").toList)

private theorem map_ofList_map_toList (words : List String) :
    (words.map String.toList).map String.ofList = words := by
  rw [List.map_map]
  exact (List.map_congr_left fun word _ => String.ofList_toList).trans (List.map_id words)

theorem exists_words (hsome : text ≠ []) (hhead : ∀ first ∈ text.head?, Text.isBlank first = false)
    (hlast : ∀ last ∈ text.getLast?, Text.isBlank last = false) (hsign : '#' ∉ text) :
    ∃ words : List String, Spaced (words.map String.toList) text ∧ (∀ word ∈ words, Plain word.toList) ∧
      ∃ last ∈ words.getLast?, text.getLast? = last.toList.getLast? := by
  obtain ⟨pieces, hspaced, hsolid⟩ := Text.exists_spaced hsome hhead hlast
  have hwords : (pieces.map String.ofList).map String.toList = pieces := by
    rw [List.map_map]
    exact (List.map_congr_left fun piece _ => String.toList_ofList).trans (List.map_id pieces)
  obtain ⟨last, hmem, hend⟩ := hspaced.getLast?_eq hsolid
  refine ⟨pieces.map String.ofList, by rwa [hwords], ?_, String.ofList last, ?_, ?_⟩
  · intro word hword
    obtain ⟨piece, hpiece, rfl⟩ := List.mem_map.mp hword
    rw [String.toList_ofList]
    exact ⟨hsolid piece hpiece, fun hsharp => hsign (hspaced.mem_of_mem hpiece hsharp)⟩
  · rw [List.getLast?_map]
    exact Option.mem_map_of_mem _ hmem
  · rw [hend, String.toList_ofList]

/-- Every line is blank but for a comment, or falls into words. -/
theorem remark_or_cut (raw : List Char) : Remark raw ∨ ∃ words inBackground, Cut raw words inBackground := by
  obtain ⟨before, comment, rfl, hbefore, hcomment⟩ := Text.exists_run (· != '#') raw
  have hafter : Comment comment := fun first hfirst => by simpa using hcomment first hfirst
  have hsign : '#' ∉ before := fun hmem => absurd (hbefore '#' hmem) (by decide)
  obtain ⟨lead, trail, hlead, htrail, hsplit, hhead, hlast⟩ := Text.exists_trim before
  generalize Text.trim before = text at hsplit hhead hlast
  subst hsplit
  by_cases hsome : text = []
  · subst hsome
    refine .inl ⟨lead ++ trail, comment, ?_, hafter, by rw [List.append_nil]⟩
    exact fun character hmem => (List.mem_append.mp hmem).elim (hlead character) (htrail character)
  · right
    rw [List.mem_append, List.mem_append, not_or, not_or] at hsign
    by_cases hmarked : text.getLast? = some '&'
    · obtain ⟨front, rfl⟩ := List.getLast?_eq_some_iff.mp hmarked
      obtain ⟨gap, hgap, hfront, hend⟩ := Text.exists_trimEnd front
      generalize Text.trimEnd front = body at hfront hend
      subst hfront
      by_cases hbody : body = []
      · subst hbody
        have hblank : Blank (lead ++ gap) :=
          fun character hmem => (List.mem_append.mp hmem).elim (hlead character) (hgap character)
        refine ⟨[], true, ?_⟩
        simpa using Cut.mark hblank htrail hafter
      · rw [List.append_assoc, List.head?_append_of_ne_nil _ hbody] at hhead
        simp only [List.mem_append, not_or] at hsign
        obtain ⟨words, hspaced, hplain, -⟩ := exists_words hbody hhead hend hsign.1.2.1.1
        have hmark : Mark true (gap ++ ['&']) := ⟨gap, hgap, rfl⟩
        refine ⟨words, true, ?_⟩
        simpa using Cut.words hlead hspaced hplain hmark nofun htrail hafter
    · obtain ⟨words, hspaced, hplain, last, hmem, hend⟩ := exists_words hsome hhead hlast hsign.1.2
      have hmark : Mark false [] := rfl
      have hunmarked : ∀ other ∈ words.getLast?, other.toList.getLast? ≠ some '&' := by
        intro other hother hsame
        obtain rfl := Option.some.inj (hother.symm.trans hmem)
        exact hmarked (hend.trans hsame)
      refine ⟨words, false, ?_⟩
      simpa using Cut.words hlead hspaced hplain hmark (fun _ => hunmarked) htrail hafter

theorem content_of_mark {lead trail comment : List Char} (hlead : Blank lead) (htrail : Blank trail)
    (hcomment : Comment comment) : content (lead ++ ['&'] ++ trail ++ comment) = ['&'] := by
  have hsign : '#' ∉ lead ++ ['&'] ++ trail := by
    simp only [List.mem_append, not_or]
    exact ⟨⟨Text.numberSign_not_mem hlead, by decide⟩, Text.numberSign_not_mem htrail⟩
  rw [content_append_comment hsign hcomment, Text.trim_append_blank htrail, Text.trim_blank_append hlead]
  decide

theorem parse_of_cut (hcut : Cut raw words inBackground) (number : Nat) : parse number raw =
    match Statement.ofWords (keywordOf words) words.tail with
    | .ok statement => .ok (some { number, statement, inBackground })
    | .error problem => .error { line := number, problem } := by
  cases hcut with
  | mark hlead htrail hcomment =>
    rw [parse, content_of_mark hlead htrail hcomment]
    rfl
  | @words lead body mark trail comment words inBackground hlead hbody hplain hmark hunmarked htrail hcomment =>
    have hpieces : ∀ piece ∈ words.map String.toList, Plain piece := by
      intro piece hpiece
      obtain ⟨word, hword, rfl⟩ := List.mem_map.mp hpiece
      exact hplain word hword
    have hsolid : ∀ piece ∈ words.map String.toList, Solid piece := fun piece hpiece => (hpieces piece hpiece).1
    have hends : inBackground = false → ∀ last ∈ (words.map String.toList).getLast?, last.getLast? ≠ some '&' := by
      intro hforeground last hlast
      rw [List.getLast?_map] at hlast
      obtain ⟨word, hword, rfl⟩ := Option.map_eq_some_iff.mp hlast
      exact hunmarked hforeground word hword
    have hsome : ¬ (body ++ mark).isEmpty := by
      simp [hbody.ne_nil hsolid]
    have hread : keywordAndFields body = (keywordOf words, words.tail) := by
      obtain ⟨first, rest, rfl⟩ := List.exists_cons_of_ne_nil fun hnil => hbody.words_ne_nil (List.map_eq_nil_iff.mpr hnil)
      rw [keywordAndFields, hbody.words_eq hsolid, List.map_cons]
      dsimp only
      rw [map_ofList_map_toList]
      rfl
    rw [parse, content_of_spaced hbody hpieces hmark hlead htrail hcomment]
    dsimp only
    rw [if_neg hsome, splitMark_of_spaced hbody hpieces hmark hends]
    generalize keywordAndFields body = read at hread ⊢
    subst hread
    rfl

/-! ### What is read and what is refused -/

/-- What a reader of lines would be expected to do: to take no words but those that may stand after the keyword, to show
each of them in the statement, and to refuse any other line by its number. -/
def Documented (number : Nat) (raw : List Char) (words : List String) : Prop :=
  match parse number raw with
  | .ok none => Remark raw
  | .ok (some line) => Statement.Fits (keywordOf words) words.tail.length ∧
      List.Forall₂ Statement.Echoes words.tail line.statement.fields
  | .error error => error.line = number

/-- What is said of the reading of a numbered line. -/
structure Judged (number : Nat) (raw : List Char) : Prop where
  /-- It is blank but for a comment, or it falls into words. -/
  parts : Remark raw ∨ ∃ words inBackground, Cut raw words inBackground
  /-- In the first case, and only then, there is no statement. -/
  nothing : parse number raw = .ok none ↔ Remark raw
  /-- Otherwise a statement is read exactly if it is what the words that are kept mean in the form of the keyword. -/
  accepted : ∀ words inBackground, Cut raw words inBackground → ∀ line : ScriptLine,
    (parse number raw = .ok (some line) ↔ line.number = number ∧ line.inBackground = inBackground ∧
      Statement.Form (keywordOf words) (Statement.kept (keywordOf words) words.tail) line.statement)
  /-- Where they have no form, the line is refused with its number and with what is wrong with the words. -/
  refused : ∀ words inBackground, Cut raw words inBackground →
    (∀ statement, ¬ Statement.Form (keywordOf words) (Statement.kept (keywordOf words) words.tail) statement) →
    ∃ problem, parse number raw = .error ⟨number, problem⟩ ∧ Statement.Fault (keywordOf words) words.tail problem
  /-- All is as expected exactly if no word is passed over. -/
  documented : ∀ words inBackground, Cut raw words inBackground →
    (Documented number raw words ↔ ¬ Statement.Drops (keywordOf words) words.tail)

private theorem Cut.plain (hcut : Cut raw words inBackground) : ∀ word ∈ words, Plain word.toList := by
  cases hcut with
  | words _ _ hplain => exact hplain
  | mark => exact List.forall_mem_nil _

theorem parse_eq_some_iff (hcut : Cut raw words inBackground) {line : ScriptLine} :
    parse number raw = .ok (some line) ↔ line.number = number ∧ line.inBackground = inBackground ∧
      Statement.Form (keywordOf words) (Statement.kept (keywordOf words) words.tail) line.statement := by
  rw [parse_of_cut hcut, ← Statement.ofWords_eq_ok_iff]
  obtain ⟨other, statement, marked⟩ := line
  cases hread : Statement.ofWords (keywordOf words) words.tail with
  | error problem => simp
  | ok found =>
    simp only [Except.ok.injEq, Option.some.injEq, ScriptLine.mk.injEq]
    constructor
    · rintro ⟨rfl, rfl, rfl⟩
      exact ⟨rfl, rfl, rfl⟩
    · rintro ⟨rfl, rfl, rfl⟩
      exact ⟨rfl, rfl, rfl⟩

private theorem parse_eq_error (hcut : Cut raw words inBackground)
    (hnone : ∀ statement, ¬ Statement.Form (keywordOf words) (Statement.kept (keywordOf words) words.tail) statement) :
    ∃ problem, parse number raw = .error ⟨number, problem⟩ ∧ Statement.Fault (keywordOf words) words.tail problem := by
  rw [parse_of_cut hcut]
  cases hread : Statement.ofWords (keywordOf words) words.tail with
  | ok statement => exact absurd (Statement.ofWords_eq_ok_iff.mp hread) (hnone statement)
  | error problem => exact ⟨problem, rfl, .of_error hread⟩

theorem parse_ne_none (hcut : Cut raw words inBackground) : parse number raw ≠ .ok none := by
  rw [parse_of_cut hcut]
  cases Statement.ofWords (keywordOf words) words.tail <;> nofun

theorem documented_iff (hcut : Cut raw words inBackground) :
    Documented number raw words ↔ ¬ Statement.Drops (keywordOf words) words.tail := by
  constructor
  · intro hdocumented hdrops
    obtain ⟨statement, hform⟩ := hdrops.exists_form
    have hread : parse number raw = .ok (some ⟨number, statement, inBackground⟩) :=
      (parse_eq_some_iff hcut).mpr ⟨rfl, rfl, hform⟩
    rw [Documented, hread] at hdocumented
    exact hdrops.not_fits hdocumented.1
  · intro hall
    unfold Documented
    split
    · next hnothing => exact absurd hnothing (parse_ne_none hcut)
    · next line hread =>
      obtain ⟨-, -, hform⟩ := (parse_eq_some_iff hcut).mp hread
      rw [Statement.kept_of_not_drops hall] at hform
      exact ⟨hform.fits, hform.echoes fun word hmem => hcut.plain word (List.mem_of_mem_tail hmem)⟩
    · next error hread =>
      rw [parse_of_cut hcut] at hread
      split at hread
      · cases hread
      · exact Except.error.inj hread ▸ rfl

/-- **Which lines are read, and as what.** The words of a line are read in the form of its keyword and no others are, but
for those that `stack` and the keywords without fields pass over. -/
theorem judged_by_forms (number : Nat) (raw : List Char) : Judged number raw where
  parts := remark_or_cut raw
  nothing := by
    refine ⟨fun hnothing => ?_, parse_remark number⟩
    exact (remark_or_cut raw).resolve_right fun ⟨words, inBackground, hcut⟩ => parse_ne_none hcut hnothing
  accepted := fun words inBackground hcut line => parse_eq_some_iff hcut
  refused := fun words inBackground hcut => parse_eq_error hcut
  documented := fun words inBackground hcut => documented_iff hcut

def cluttered : List Char := "clear everything".toList

private theorem cluttered_cut : Cut cluttered ["clear", "everything"] false := by
  have hbody : Spaced (["clear", "everything"].map String.toList) cluttered :=
    .cons _ (List.cons_ne_nil ' ' []) (by decide) (.last _)
  have hblank : Blank [] := List.forall_mem_nil _
  have hunmarked : ∀ last ∈ ["clear", "everything"].getLast?, last.toList.getLast? ≠ some '&' := by decide
  have hcomment : Comment [] := by rintro _ ⟨⟩
  simpa using Cut.words hblank hbody (by decide) (show Mark false [] from rfl) (fun _ => hunmarked) hblank hcomment

/-- Not all lines are read by their forms. -/
theorem not_always_documented : ¬ ∀ (number : Nat) (raw : List Char) (words : List String) (inBackground : Bool),
    Cut raw words inBackground → Documented number raw words := by
  intro hall
  exact (documented_iff cluttered_cut).mp (hall 3 cluttered _ _ cluttered_cut) (.inr ⟨by decide, by decide⟩)

end ScriptLine

end Retrace
