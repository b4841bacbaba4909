import Retrace.Proofs.Words
import Retrace.Statement.Reader

/-!
# Scripts read back

A statement can be written on a line in many ways (`ScriptLine.Spells`): its printed text with other blanks around and
between its words, with letters of any case in its keyword, and with a comment after it. All of them are read as that
statement. A script of such lines, among lines that are blank or hold only a comment, is read as its statements.
-/

namespace Retrace

open Text (Blank Solid Spaced)

/-! ### Words of a script -/

/-- A word that can stand in a script is not empty, and has no blank and no number sign. -/
def Text.Plain (word : List Char) : Prop := Solid word ∧ '#' ∉ word

open Text (Plain)

instance (word : List Char) : Decidable (Plain word) := inferInstanceAs (Decidable (Solid word ∧ '#' ∉ word))

namespace Text

variable {text word : List Char} {character : Char}

theorem numberSign_not_mem (hblank : Blank text) : '#' ∉ text :=
  fun hmem => absurd (hblank '#' hmem) (by decide)

theorem splitOn_of_plain (hword : Plain word) : word.splitOn ' ' = [word] := by
  refine List.splitOn_eq_singleton fun hmem => ?_
  exact absurd (hword.1.2 ' ' hmem) (by decide)

theorem plain_of_ascii (hsome : word ≠ [])
    (hascii : ∀ character ∈ word, 0x26 ≤ character.toNat ∧ character.toNat < 0x80) : Plain word := by
  refine ⟨⟨hsome, fun character hmem => ?_⟩, fun hmem => absurd (hascii '#' hmem).1 (by decide)⟩
  have hbounds := hascii character hmem
  simp only [isBlank, inRanges, blankCodes, List.any_cons, List.any_nil, Bool.or_false, Bool.or_eq_false_iff,
    Bool.and_eq_false_iff, decide_eq_false_iff_not]
  omega

theorem bounds_of_mem_toDigits {number : Nat} (hmem : character ∈ Nat.toDigits 10 number) :
    0x30 ≤ character.toNat ∧ character.toNat ≤ 0x39 :=
  Char.isDigit_iff_toNat.mp (Nat.isDigit_of_mem_toDigits (by decide) (by decide) hmem)

theorem toDigits_ascii (number : Nat) : ∀ character ∈ Nat.toDigits 10 number,
    0x26 ≤ character.toNat ∧ character.toNat < 0x80 := by
  intro character hmem
  have hbounds := bounds_of_mem_toDigits hmem
  omega

theorem plain_toString_nat (number : Nat) : Plain (toString number).toList := by
  rw [Nat.toString_eq_repr, Nat.toList_repr]
  exact plain_of_ascii Nat.toDigits_ne_nil (toDigits_ascii number)

theorem plain_toString_int (number : Int) : Plain (toString number).toList := by
  rw [Int.toString_eq_repr, Int.repr_eq_if]
  split_ifs
  · exact plain_toString_nat _
  · rw [String.toList_append, Nat.toList_repr]
    exact plain_of_ascii (List.cons_ne_nil _ _) (List.forall_mem_cons.mpr ⟨by decide, toDigits_ascii _⟩)

theorem ascii_of_toLower (hsmall : character.toLower.isLower = true) :
    0x41 ≤ character.toNat ∧ character.toNat < 0x80 := by
  unfold Char.toLower at hsmall
  split at hsmall
  · next hcapital =>
    simp only [ge_iff_le, UInt32.le_iff_toNat_le] at hcapital
    exact ⟨hcapital.1, hcapital.2.trans_lt (by decide)⟩
  · change (decide ('a'.val ≤ character.val) && decide (character.val ≤ 'z'.val)) = true at hsmall
    simp only [Bool.and_eq_true, decide_eq_true_eq, UInt32.le_iff_toNat_le] at hsmall
    exact ⟨le_trans (by decide) hsmall.1, hsmall.2.trans_lt (by decide)⟩

end Text

/-! ### Statements and their words -/

namespace Statement

variable {statement : Statement} {names : Option String}

def Listed (names : Option String) : Prop :=
  ∀ text ∈ names, ∃ words : List String,
    words ≠ [] ∧ (∀ word ∈ words, Plain word.toList) ∧ text = " ".intercalate words

/-- A statement that can stand in a script: its texts are words, and where it takes a list of scopes, lists of words. -/
def Writable : Statement → Prop
  | set scope account _ | add scope account _ | get scope account => Plain scope.toList ∧ Plain account.toList
  | undo names | redo names | queued names => Listed names
  | stack id => ∀ name ∈ id, Plain name.toList
  | jump _ | limit _ | history | wait | balances | clear | scopes => True

/-- The keyword of a statement. -/
def keyword (statement : Statement) : String := statement.words.headD ""

/-- The words after the keyword; a list of scopes is as many words as it has names. -/
def fields (statement : Statement) : List (List Char) :=
  statement.words.tail.flatMap fun text => text.toList.splitOn ' '

def keywords : List String :=
  ["set", "add", "get", "undo", "redo", "jump", "stack", "limit", "history", "queued", "wait", "balances", "clear",
    "scopes"]

private theorem words_eq (statement : Statement) : statement.words = statement.keyword :: statement.words.tail := by
  cases statement with
  | jump index => cases index <;> rfl
  | _ => rfl

theorem keyword_mem (statement : Statement) : statement.keyword ∈ keywords := by
  cases statement with
  | jump index => cases index <;> exact (by decide : "jump" ∈ keywords)
  | _ => simp only [keyword, words, List.headD_cons]; decide

theorem small_keyword (statement : Statement) :
    statement.keyword.toList ≠ [] ∧ ∀ character ∈ statement.keyword.toList, character.isLower = true := by
  have hall : ∀ keyword ∈ keywords, keyword.toList ≠ [] ∧ keyword.toList.all Char.isLower = true := by decide
  obtain ⟨hsome, hlower⟩ := hall _ statement.keyword_mem
  exact ⟨hsome, List.all_eq_true.mp hlower⟩

theorem map_toLower_keyword (statement : Statement) :
    statement.keyword.toList.map Char.toLower = statement.keyword.toList := by
  have hall : ∀ keyword ∈ keywords, keyword.toList.map Char.toLower = keyword.toList := by decide
  exact hall _ statement.keyword_mem

theorem ascii_of_map_toLower {written : List Char} (hcase : written.map Char.toLower = statement.keyword.toList) :
    ∀ character ∈ written, 0x41 ≤ character.toNat ∧ character.toNat < 0x80 := by
  intro character hmem
  have hsmall : character.toLower ∈ statement.keyword.toList := hcase ▸ List.mem_map_of_mem hmem
  exact Text.ascii_of_toLower (statement.small_keyword.2 _ hsmall)

theorem plain_of_map_toLower {written : List Char} (hcase : written.map Char.toLower = statement.keyword.toList) :
    Plain written := by
  refine Text.plain_of_ascii ?_ fun character hmem => ?_
  · rintro rfl
    exact statement.small_keyword.1 hcase.symm
  · have hascii := ascii_of_map_toLower hcase character hmem
    omega

private theorem number_toString (value : Int64) : number (toString value.toInt) = .ok value := by
  rw [number, Text.signed64?_toString]

private theorem bound_toString (value : UInt64) : bound (toString value.toNat) = .ok value := by
  rw [bound, Text.unsigned64?_toString]

theorem isNone_toString (number : Nat) : isNone (toString number) = false := by
  rw [isNone, Nat.toString_eq_repr, Nat.toList_repr, beq_eq_false_iff_ne]
  intro hnone
  have hmem : 'n' ∈ (Nat.toDigits 10 number).map Char.toLower := by
    rw [hnone]
    decide
  obtain ⟨character, hdigit, hsmall⟩ := List.mem_map.mp hmem
  have hletter := Text.ascii_of_toLower (by rw [hsmall]; decide : character.toLower.isLower = true)
  have hbounds := Text.bounds_of_mem_toDigits hdigit
  omega

private theorem index_toString (value : UInt64) : index (toString value.toNat) = .ok (some value) := by
  rw [index, isNone_toString, Text.unsigned64?_toString]
  rfl

structure ReadFrom (statement : Statement) (words : List String) : Prop where
  plain : ∀ word ∈ words, Plain word.toList
  fields_eq : statement.fields = words.map String.toList
  read : ofWords statement.keyword words = .ok statement

theorem flatMap_splitOn {texts : List String} (hplain : ∀ text ∈ texts, Plain text.toList) :
    texts.flatMap (fun text => text.toList.splitOn ' ') = texts.map String.toList := by
  induction texts with
  | nil => rfl
  | cons text rest ih =>
    obtain ⟨htext, hrest⟩ := List.forall_mem_cons.mp hplain
    rw [List.flatMap_cons, Text.splitOn_of_plain htext, ih hrest]
    rfl

private theorem readFrom_of_plain (hplain : ∀ text ∈ statement.words.tail, Plain text.toList)
    (hread : ofWords statement.keyword statement.words.tail = .ok statement) :
    statement.ReadFrom statement.words.tail := ⟨hplain, flatMap_splitOn hplain, hread⟩

theorem flatMap_splitOn_joined? {words : List String} (hsolid : ∀ word ∈ words, Solid word.toList) :
    (joined? words).toList.flatMap (fun text => text.toList.splitOn ' ') = words.map String.toList := by
  cases words with
  | nil => rfl
  | cons first rest =>
    have hspaceless : ∀ word ∈ (first :: rest).map String.toList, ' ' ∉ word := by
      intro word hmem hspace
      obtain ⟨name, hname, rfl⟩ := List.mem_map.mp hmem
      exact absurd ((hsolid name hname).2 ' ' hspace) (by decide)
    rw [joined?, if_neg (by simp), Option.toList_some, List.flatMap_singleton, String.toList_intercalate]
    exact List.splitOn_intercalate ' ' hspaceless (by simp)

theorem Listed.exists_words (h : Listed names) : ∃ words : List String, (∀ word ∈ words, Plain word.toList) ∧
    names.toList.flatMap (fun text => text.toList.splitOn ' ') = words.map String.toList ∧ joined? words = names := by
  cases names with
  | none => exact ⟨[], List.forall_mem_nil _, rfl, rfl⟩
  | some text =>
    obtain ⟨words, hsome, hplain, rfl⟩ := h text rfl
    have hjoined : joined? words = some (" ".intercalate words) := by
      rw [joined?, if_neg (by simpa using hsome)]
    rw [← hjoined]
    exact ⟨words, hplain, flatMap_splitOn_joined? fun word hmem => (hplain word hmem).1, rfl⟩

private theorem readFrom_of_listed {form : Option String → Statement} (h : Listed names)
    (hfields : (form names).words.tail = names.toList)
    (hform : ∀ words, ofWords (form names).keyword words = .ok (form (joined? words))) :
    ∃ words, (form names).ReadFrom words := by
  obtain ⟨words, hplain, hwords, hjoined⟩ := h.exists_words
  refine ⟨words, hplain, ?_, ?_⟩
  · rw [fields, hfields, hwords]
  · rw [hform, hjoined]

theorem Writable.exists_readFrom (h : statement.Writable) : ∃ words, statement.ReadFrom words := by
  cases statement with
  | set scope account value =>
    refine ⟨_, readFrom_of_plain ?_ (congrArg (Except.map (set scope account)) (number_toString value))⟩
    simp only [words, List.tail_cons, List.forall_mem_cons]
    exact ⟨h.1, h.2, Text.plain_toString_int _, List.forall_mem_nil _⟩
  | add scope account delta =>
    refine ⟨_, readFrom_of_plain ?_ (congrArg (Except.map (add scope account)) (number_toString delta))⟩
    simp only [words, List.tail_cons, List.forall_mem_cons]
    exact ⟨h.1, h.2, Text.plain_toString_int _, List.forall_mem_nil _⟩
  | get scope account =>
    refine ⟨_, readFrom_of_plain ?_ rfl⟩
    simp only [words, List.tail_cons, List.forall_mem_cons]
    exact ⟨h.1, h.2, List.forall_mem_nil _⟩
  | undo names => exact readFrom_of_listed h rfl fun _ => rfl
  | redo names => exact readFrom_of_listed h rfl fun _ => rfl
  | queued names => exact readFrom_of_listed h rfl fun _ => rfl
  | jump index =>
    cases index with
    | none => exact ⟨_, readFrom_of_plain (by decide) rfl⟩
    | some index =>
      refine ⟨_, readFrom_of_plain ?_ (congrArg (Except.map jump) (index_toString index))⟩
      exact List.forall_mem_singleton.mpr (Text.plain_toString_nat _)
  | stack id =>
    cases id with
    | none => exact ⟨_, readFrom_of_plain (List.forall_mem_nil _) rfl⟩
    | some name => exact ⟨_, readFrom_of_plain (List.forall_mem_singleton.mpr (h name rfl)) rfl⟩
  | limit count =>
    refine ⟨_, readFrom_of_plain ?_ (congrArg (Except.map limit) (bound_toString count))⟩
    exact List.forall_mem_singleton.mpr (Text.plain_toString_nat _)
  | _ => exact ⟨_, readFrom_of_plain (List.forall_mem_nil _) rfl⟩

theorem splitOn_intercalate_words {texts : List String} (hsome : texts ≠ []) :
    (" ".intercalate texts).toList.splitOn ' ' = texts.flatMap fun text => text.toList.splitOn ' ' := by
  rw [String.toList_intercalate]
  induction texts with
  | nil => exact absurd rfl hsome
  | cons text rest ih =>
    by_cases hrest : rest = []
    · rw [hrest, List.map_singleton, List.intercalate_singleton, List.flatMap_singleton]
    · rw [List.map_cons, List.intercalate_cons_of_ne_nil (by simpa using hrest), List.append_assoc, List.flatMap_cons,
        ← ih hrest]
      exact List.splitOn_append_cons_self _ _

private theorem spaced_printed (statement : Statement) :
    Spaced (statement.keyword.toList :: statement.fields) (" ".intercalate statement.words).toList := by
  have hwords : (" ".intercalate statement.words).toList.splitOn ' ' =
      statement.keyword.toList :: statement.fields := by
    rw [splitOn_intercalate_words (by rw [words_eq]; exact List.cons_ne_nil _ _), words_eq, List.flatMap_cons,
      Text.splitOn_of_plain (plain_of_map_toLower statement.map_toLower_keyword)]
    rfl
  have hspaced : Spaced _ ([' '].intercalate (statement.keyword.toList :: statement.fields)) :=
    .intercalate (by decide) (List.cons_ne_nil _ _)
  rwa [← hwords, List.intercalate_splitOn, hwords] at hspaced

end Statement

/-! ### Lines -/

namespace ScriptLine

variable {line : ScriptLine} {raw text comment mark : List Char}

def Comment (text : List Char) : Prop := ∀ first ∈ text.head?, first = '#'

def Mark : Bool → List Char → Prop
  | true, text => ∃ gap, Blank gap ∧ text = gap ++ ['&']
  | false, text => text = []

/-- The texts that write a line: its words with any blanks around and between them, the keyword in letters of any case,
the mark if it is in the background, and perhaps a comment. -/
inductive Spells (line : ScriptLine) : List Char → Prop
  | intro {lead keyword body mark trail comment : List Char} (hlead : Blank lead)
      (hcase : keyword.map Char.toLower = line.statement.keyword.toList)
      (hbody : Spaced (keyword :: line.statement.fields) body) (hmark : Mark line.inBackground mark)
      (htrail : Blank trail) (hcomment : Comment comment) : Spells line (lead ++ body ++ mark ++ trail ++ comment)

/-- A text of blanks with perhaps a comment after them. -/
def Remark (raw : List Char) : Prop := ∃ lead comment, Blank lead ∧ Comment comment ∧ raw = lead ++ comment

/-- A line that can stand in a script. In the foreground, its last word does not end in the mark of the background; a
keyword never does. -/
structure Writable (line : ScriptLine) : Prop where
  statement : line.statement.Writable
  unmarked : line.inBackground = false → ∀ last ∈ line.statement.fields.getLast?, last.getLast? ≠ some '&'

private theorem spells_text (line : ScriptLine) : line.Spells line.text.toList := by
  have hspells : ∀ mark, Mark line.inBackground mark →
      line.Spells ([] ++ (" ".intercalate line.statement.words).toList ++ mark ++ [] ++ []) := fun mark hmark =>
    .intro (List.forall_mem_nil _) line.statement.map_toLower_keyword line.statement.spaced_printed hmark
      (List.forall_mem_nil _) (by rintro _ ⟨⟩)
  simp only [List.nil_append, List.append_nil] at hspells
  unfold ScriptLine.text
  dsimp only
  split
  · next hbackground =>
    rw [String.toList_append]
    exact hspells _ (by rw [hbackground]; exact ⟨[' '], by decide, rfl⟩)
  · next hforeground =>
    have hnone := hspells [] (by rw [Bool.eq_false_iff.mpr hforeground]; exact rfl)
    rwa [List.append_nil] at hnone

theorem content_append_comment (htext : '#' ∉ text) (hcomment : Comment comment) :
    content (text ++ comment) = Text.trim text := by
  have hall : ∀ character ∈ text, (character != '#') = true := by
    intro character hmem
    simpa using ne_of_mem_of_not_mem hmem htext
  have hnone : comment.takeWhile (· != '#') = [] := by
    cases comment with
    | nil => rfl
    | cons first rest => exact List.takeWhile_cons_of_neg (by simp [hcomment first rfl])
  rw [content, List.takeWhile_append_of_pos hall, hnone, List.append_nil]

theorem parse_remark (number : Nat) (hremark : Remark raw) : parse number raw = .ok none := by
  obtain ⟨lead, comment, hlead, hcomment, rfl⟩ := hremark
  have hcontent : content (lead ++ comment) = [] := by
    rw [content_append_comment (Text.numberSign_not_mem hlead) hcomment]
    exact Text.trim_of_blank hlead
  rw [parse, hcontent]
  rfl

section Parts

variable {keyword lead body trail : List Char} {words fields : List (List Char)} {inBackground : Bool}

theorem content_of_spaced (hbody : Spaced words body) (hplain : ∀ word ∈ words, Plain word)
    (hmark : Mark inBackground mark) (hlead : Blank lead) (htrail : Blank trail) (hcomment : Comment comment) :
    content (lead ++ body ++ mark ++ trail ++ comment) = body ++ mark := by
  have hsolid : ∀ word ∈ words, Solid word := fun word hmem => (hplain word hmem).1
  have hbodyless : ∀ character ∈ body, character ≠ '#' := by
    refine hbody.forall_mem ?_ fun word hword _ hmem => ne_of_mem_of_not_mem hmem (hplain word hword).2
    rintro _ hblank rfl
    exact absurd hblank (by decide)
  have hends : '#' ∉ mark ∧ ∀ last ∈ (body ++ mark).getLast?, Text.isBlank last = false := by
    cases inBackground with
    | false =>
      obtain rfl : mark = [] := hmark
      rw [List.append_nil]
      exact ⟨List.not_mem_nil, hbody.isBlank_last hsolid⟩
    | true =>
      obtain ⟨gap, hgap, rfl⟩ := hmark
      refine ⟨?_, ?_⟩
      · simpa using Text.numberSign_not_mem hgap
      · rw [← List.append_assoc, List.getLast?_concat]
        rintro _ ⟨⟩
        decide
  have hhead : ∀ first ∈ (body ++ mark).head?, Text.isBlank first = false := by
    rw [List.head?_append_of_ne_nil _ (hbody.ne_nil hsolid)]
    exact hbody.isBlank_head hsolid
  have htext : '#' ∉ lead ++ body ++ mark ++ trail := by
    simp only [List.mem_append, not_or]
    exact ⟨⟨⟨Text.numberSign_not_mem hlead, fun hmem => hbodyless '#' hmem rfl⟩, hends.1⟩,
      Text.numberSign_not_mem htrail⟩
  rw [content_append_comment htext hcomment, Text.trim_append_blank htrail, List.append_assoc,
    Text.trim_blank_append hlead, Text.trim_of_ends hhead hends.2]

theorem splitMark_of_spaced (hbody : Spaced words body) (hplain : ∀ word ∈ words, Plain word)
    (hmark : Mark inBackground mark)
    (hunmarked : inBackground = false → ∀ last ∈ words.getLast?, last.getLast? ≠ some '&') :
    splitMark (body ++ mark) = (body, inBackground) := by
  have hsolid : ∀ word ∈ words, Solid word := fun word hmem => (hplain word hmem).1
  cases inBackground with
  | false =>
    obtain rfl : mark = [] := hmark
    obtain ⟨last, hlast, heq⟩ := hbody.getLast?_eq hsolid
    rw [List.append_nil, splitMark, if_neg]
    rw [heq]
    exact hunmarked rfl last hlast
  | true =>
    obtain ⟨gap, hgap, rfl⟩ := hmark
    rw [← List.append_assoc, splitMark, if_pos List.getLast?_concat, List.dropLast_concat,
      Text.trimEnd_append_blank hgap, Text.trimEnd_of_getLast? (hbody.isBlank_last hsolid)]

private theorem keywordAndFields_of_spaced {statement : Statement} (hbody : Spaced (keyword :: fields) body)
    (hplain : ∀ word ∈ keyword :: fields, Plain word)
    (hcase : keyword.map Char.toLower = statement.keyword.toList) :
    keywordAndFields body = (statement.keyword, fields.map String.ofList) := by
  have hsolid : ∀ word ∈ keyword :: fields, Solid word := fun word hmem => (hplain word hmem).1
  have hlowercase : Text.lowercase keyword = statement.keyword.toList := by
    rw [← hcase]
    exact Text.lowercase_of_ascii fun character hmem => (Statement.ascii_of_map_toLower hcase character hmem).2
  rw [keywordAndFields, hbody.words_eq hsolid]
  dsimp only
  rw [hlowercase, String.ofList_toList]

theorem Writable.unmarked_words (hline : line.Writable)
    (hcase : keyword.map Char.toLower = line.statement.keyword.toList) (hforeground : line.inBackground = false) :
    ∀ last ∈ (keyword :: line.statement.fields).getLast?, last.getLast? ≠ some '&' := by
  rw [List.getLast?_cons]
  rintro _ ⟨⟩
  cases hlast : line.statement.fields.getLast? with
  | some last => exact hline.unmarked hforeground last hlast
  | none =>
    intro hmark
    exact absurd (Statement.ascii_of_map_toLower hcase '&' (List.mem_of_getLast? hmark)).1 (by decide)

end Parts

theorem parse_of_spells (hline : line.Writable) (h : line.Spells raw) : parse line.number raw = .ok (some line) := by
  obtain @⟨lead, keyword, body, mark, trail, comment, hlead, hcase, hbody, hmark, htrail, hcomment⟩ := h
  obtain ⟨words, hwords⟩ := hline.statement.exists_readFrom
  have hplain : ∀ word ∈ keyword :: line.statement.fields, Plain word := by
    refine List.forall_mem_cons.mpr ⟨Statement.plain_of_map_toLower hcase, ?_⟩
    rw [hwords.fields_eq]
    exact List.forall_mem_map.mpr hwords.plain
  have hsome : (body ++ mark).isEmpty = false := by
    have hbodySome : body ≠ [] := hbody.ne_nil fun word hmem => (hplain word hmem).1
    exact List.isEmpty_eq_false_iff.mpr (List.append_ne_nil_of_left_ne_nil hbodySome _)
  have hback : line.statement.fields.map String.ofList = words := by
    rw [hwords.fields_eq, List.map_map]
    exact (List.map_congr_left fun word _ => String.ofList_toList).trans (List.map_id _)
  rw [parse, content_of_spaced hbody hplain hmark hlead htrail hcomment]
  dsimp only
  rw [hsome, splitMark_of_spaced hbody hplain hmark (hline.unmarked_words hcase)]
  dsimp only
  rw [keywordAndFields_of_spaced hbody hplain hcase]
  dsimp only
  rw [hback, hwords.read]
  rfl

/-- A carriage return at the end of a line is a blank or belongs to a comment. -/
theorem content_dropCarriageReturn (raw : List Char) : content (Text.dropCarriageReturn raw) = content raw := by
  unfold Text.dropCarriageReturn
  split_ifs with hreturn
  · obtain ⟨before, rfl⟩ := List.getLast?_eq_some_iff.mp hreturn
    rw [List.dropLast_concat, content, content, List.takeWhile_append]
    -- without a comment the carriage return is trimmed away, with one it is in the comment
    split_ifs with hwhole
    · have hall : before.takeWhile (· != '#') = before := (List.takeWhile_prefix _).eq_of_length hwhole
      rw [hall]
      exact (Text.trim_append_blank (by decide) before).symm
    · rfl
  · rfl

private theorem parse_dropCarriageReturn (number : Nat) (raw : List Char) :
    parse number (Text.dropCarriageReturn raw) = parse number raw := by
  rw [parse, parse, content_dropCarriageReturn]

end ScriptLine

/-! ### Scripts -/

namespace Script

variable {number : Nat} {raws : List (List Char)} {lines : List ScriptLine}

inductive Written : Nat → List (List Char) → List ScriptLine → Prop
  | nil {number : Nat} : Written number [] []
  | remark {number : Nat} {raw : List Char} {raws : List (List Char)} {lines : List ScriptLine}
      (hremark : ScriptLine.Remark raw) (hline : '\n' ∉ raw) (hrest : Written (number + 1) raws lines) :
      Written number (raw :: raws) lines
  | statement {number : Nat} {line : ScriptLine} {raw : List Char} {raws : List (List Char)} {lines : List ScriptLine}
      (hnumber : line.number = number) (hwritable : line.Writable) (hspells : line.Spells raw) (hline : '\n' ∉ raw)
      (hrest : Written (number + 1) raws lines) : Written number (raw :: raws) (line :: lines)

private theorem Written.parseLines_eq (h : Written number raws lines) : parseLines number raws = .ok lines := by
  induction h with
  | nil => rfl
  | remark hremark _ _ ih =>
    rw [parseLines, ScriptLine.parse_remark _ hremark, ih]
    rfl
  | statement hnumber hwritable hspells _ _ ih =>
    subst hnumber
    rw [parseLines, ScriptLine.parse_of_spells hwritable hspells, ih]
    rfl

private theorem Written.forall_mem (h : Written number raws lines) : ∀ raw ∈ raws, '\n' ∉ raw := by
  induction h with
  | nil => exact List.forall_mem_nil _
  | remark _ hline _ ih => exact List.forall_mem_cons.mpr ⟨hline, ih⟩
  | statement _ _ _ hline _ ih => exact List.forall_mem_cons.mpr ⟨hline, ih⟩

theorem parseLines_map_dropCarriageReturn {rest others : List (List Char)}
    (hrest : ∀ number, parseLines number rest = parseLines number others) (number : Nat) (raws : List (List Char)) :
    parseLines number (raws.map Text.dropCarriageReturn ++ rest) = parseLines number (raws ++ others) := by
  induction raws generalizing number with
  | nil => exact hrest number
  | cons raw raws ih =>
    rw [List.map_cons, List.cons_append, List.cons_append, parseLines, parseLines, ScriptLine.parse_dropCarriageReturn,
      ih]

theorem parse_eq (text : String) : parse text = parseLines 1 (text.toList.splitOn '\n') := by
  have hsome := List.splitOn_ne_nil '\n' text.toList
  -- an empty last line is left out, but there is no statement on it
  have hlast : ∀ (last : List Char) number,
      parseLines number ([last].filter fun last => !last.isEmpty) = parseLines number [last] := by
    intro last number
    cases last <;> rfl
  rw [parse, Text.lines, ← List.splitOn_eq_splitOnP, List.getLast?_eq_some_getLast hsome,
    Option.toList_some, parseLines_map_dropCarriageReturn (hlast _), List.dropLast_append_getLast hsome]

/-- **Scripts are read as they are written.** A line that can stand in a script is read back from its printed text, and
the same from every other way to write it. Lines among blank lines and comments, joined by newlines, are read as exactly
these lines, each with its number. -/
theorem parse_written :
    (∀ line : ScriptLine, line.Writable →
      ScriptLine.parse line.number line.text.toList = .ok (some line) ∧
      ∀ raw, line.Spells raw → ScriptLine.parse line.number raw = .ok (some line)) ∧
    ∀ raws lines, Written 1 raws lines → parse ("\n".intercalate (raws.map String.ofList)) = .ok lines := by
  refine ⟨fun line hline => ⟨?_, fun raw hspells => ScriptLine.parse_of_spells hline hspells⟩, ?_⟩
  · exact ScriptLine.parse_of_spells hline line.spells_text
  · intro raws lines hwritten
    by_cases hnone : raws = []
    · subst hnone
      cases hwritten
      rfl
    · have htexts : (raws.map String.ofList).map String.toList = raws := by
        rw [List.map_map]
        exact (List.map_congr_left fun _ _ => String.toList_ofList).trans (List.map_id _)
      rw [parse_eq, String.toList_intercalate, htexts]
      have hsplit : (['\n'].intercalate raws).splitOn '\n' = raws :=
        List.splitOn_intercalate '\n' hwritten.forall_mem hnone
      exact (congrArg (parseLines 1) hsplit).trans hwritten.parseLines_eq

def sampleLine : ScriptLine := ⟨2, .set "brand" "acme&" (-0x8000000000000000), true⟩

/-- A script that holds one statement, between a comment and an empty line. -/
def sampleScript : List (List Char) :=
  ["# opening".toList, "\tSeT brand  acme& -9223372036854775808& #".toList, []]

/-- The statement is read back from its printed text, and from a line with a keyword in mixed case, more blanks, and the
mark at its last word. -/
theorem parse_written_sample :
    sampleLine.Writable ∧ ScriptLine.parse 2 sampleLine.text.toList = .ok (some sampleLine) ∧
      Written 1 sampleScript [sampleLine] ∧
      parse "# opening\n\tSeT brand  acme& -9223372036854775808& #\n" = .ok [sampleLine] := by
  have hwritable : sampleLine.Writable := ⟨⟨by decide, by decide⟩, nofun⟩
  have hbody : Spaced ("SeT".toList :: sampleLine.statement.fields) "SeT brand  acme& -9223372036854775808".toList :=
    .cons _ (List.cons_ne_nil ' ' []) (by decide) <| .cons _ (List.cons_ne_nil ' ' [' ']) (by decide) <|
      .cons _ (List.cons_ne_nil ' ' []) (by decide) <| .last _
  have hspells : sampleLine.Spells "\tSeT brand  acme& -9223372036854775808& #".toList :=
    @ScriptLine.Spells.intro sampleLine ['\t'] _ _ ['&'] [' '] ['#'] (by decide) (by decide) hbody
      ⟨[], by decide, rfl⟩ (by decide) (by rintro _ ⟨⟩; rfl)
  have hopening : ScriptLine.Remark "# opening".toList :=
    ⟨[], "# opening".toList, by decide, by rintro _ ⟨⟩; rfl, rfl⟩
  have hempty : ScriptLine.Remark [] := ⟨[], [], by decide, by rintro _ ⟨⟩, rfl⟩
  have hwritten : Written 1 sampleScript [sampleLine] :=
    .remark hopening (by decide) (.statement rfl hwritable hspells (by decide) (.remark hempty (by decide) .nil))
  exact ⟨hwritable, (parse_written.1 sampleLine hwritable).1, hwritten,
    parse_written.2 sampleScript [sampleLine] hwritten⟩

end Script

end Retrace
