import Mathlib.Data.List.DropRight
import Mathlib.Data.List.Nodup
import Retrace.Scope.Registry

/-!
# Registered names and their areas

What registration keeps of a registry (`Proper`), and what follows for the bits: each registered name has a bit of
its own, and the mask of a registry is the bits of its names.
-/

namespace Retrace

namespace Text

/-- A text without blanks at its ends has none to take away. -/
theorem trim_trim (text : List Char) : trim (trim text) = trim text := by
  have hstart : trimStart (trim text) = trim text := by
    rw [trimStart, List.dropWhile_eq_self_iff]
    intro hsome
    have hkept : trim text <+: trimStart text := List.rdropWhile_prefix isBlank (trimStart text)
    have hlong : 0 < (trimStart text).length := hsome.trans_le hkept.length_le
    rw [hkept.getElem hsome]
    exact List.dropWhile_get_zero_not isBlank text hlong
  have hend : trimEnd (trim text) = trim text := List.rdropWhile_idempotent isBlank (trimStart text)
  rw [trim, hstart, hend]

end Text

namespace Registry

variable {registry after : Registry} {name : String} {names taken batch : List String}

private theorem trimName_trimName (name : String) : trimName (trimName name) = trimName name := by
  simp only [trimName, String.toList_ofList, Text.trim_trim]

/-! ### What registration keeps -/

/-- The names are different, have no blanks around them, are neither empty nor that of the wildcard, and there are
no more of them than areas. -/
structure Proper (registry : Registry) : Prop where
  nodup : registry.names.Nodup
  trimmed : ∀ name ∈ registry.names, trimName name = name
  named : ∀ name ∈ registry.names, name ≠ "" ∧ name ≠ Scope.wildcardName
  room : registry.names.length ≤ Scope.areaLimit

/-- There is no objection to names that are new, different, and neither empty nor that of the wildcard. -/
theorem objection?_eq_none_iff : objection? taken names = none ↔
    names.Nodup ∧ ∀ name ∈ names, name ≠ "" ∧ name ≠ Scope.wildcardName ∧ name ∉ taken := by
  induction names generalizing taken with
  | nil => simp [objection?]
  | cons first rest ih =>
    rw [objection?, List.nodup_cons, List.forall_mem_cons]
    by_cases hfirst : first ≠ "" ∧ first ≠ Scope.wildcardName ∧ first ∉ taken
    · obtain ⟨hsome, hspecific, hnew⟩ := hfirst
      rw [if_neg hsome, if_neg hspecific, if_neg hnew, ih]
      constructor
      · rintro ⟨hnodup, hrest⟩
        refine ⟨⟨fun hmem => (hrest first hmem).2.2 List.mem_cons_self, hnodup⟩, ⟨hsome, hspecific, hnew⟩, ?_⟩
        exact fun name hmem => ⟨(hrest name hmem).1, (hrest name hmem).2.1,
          fun htaken => (hrest name hmem).2.2 (List.mem_cons_of_mem _ htaken)⟩
      · rintro ⟨⟨hapart, hnodup⟩, -, hrest⟩
        refine ⟨hnodup, fun name hmem => ⟨(hrest name hmem).1, (hrest name hmem).2.1, fun htaken => ?_⟩⟩
        rcases List.mem_cons.mp htaken with rfl | htaken
        · exact hapart hmem
        · exact (hrest name hmem).2.2 htaken
    · constructor
      · intro hnone
        split_ifs at hnone with hempty hwild htaken
        exact absurd ⟨hempty, hwild, htaken⟩ hfirst
      · exact fun ⟨_, hokay, _⟩ => absurd hokay hfirst

/-- Names that can be added to a registry as they are: they are different, new, neither empty nor that of the wildcard,
and there are areas left for all of them. -/
structure Admits (registry : Registry) (added : List String) : Prop where
  nodup : added.Nodup
  new : ∀ name ∈ added, name ≠ "" ∧ name ≠ Scope.wildcardName ∧ name ∉ registry.names
  room : registry.names.length + added.length ≤ Scope.areaLimit

/-- A batch is accepted exactly when its trimmed names can be added, and then they come after the others. -/
theorem register_eq_ok_iff : registry.register batch = .ok after ↔
    registry.Admits (batch.map trimName) ∧ after = ⟨registry.names ++ batch.map trimName⟩ := by
  unfold register
  dsimp only
  constructor
  · intro hregister
    split at hregister
    · cases hregister
    · next hnone =>
      obtain ⟨hnodup, hnew⟩ := objection?_eq_none_iff.mp hnone
      split_ifs at hregister with hmany
      exact ⟨⟨hnodup, hnew, Nat.le_of_not_lt hmany⟩, (Except.ok.inj hregister).symm⟩
  · rintro ⟨⟨hnodup, hnew, hroom⟩, rfl⟩
    rw [objection?_eq_none_iff.mpr ⟨hnodup, hnew⟩]
    dsimp only
    rw [if_neg (Nat.not_lt.mpr hroom)]

theorem Proper.empty : Registry.empty.Proper := by
  constructor <;> simp [Registry.empty]

theorem Proper.register (hproper : registry.Proper) (hregister : registry.register batch = .ok after) :
    after.Proper := by
  obtain ⟨⟨hnodup, hnew, hroom⟩, rfl⟩ := register_eq_ok_iff.mp hregister
  refine ⟨?_, ?_, ?_, ?_⟩
  · rw [List.nodup_append]
    refine ⟨hproper.nodup, hnodup, ?_⟩
    rintro old hold name hname rfl
    exact (hnew old hname).2.2 hold
  · intro name hmem
    rcases List.mem_append.mp hmem with hold | hadded
    · exact hproper.trimmed name hold
    · obtain ⟨raw, -, rfl⟩ := List.mem_map.mp hadded
      exact trimName_trimName raw
  · intro name hmem
    rcases List.mem_append.mp hmem with hold | hadded
    · exact hproper.named name hold
    · exact ⟨(hnew name hadded).1, (hnew name hadded).2.1⟩
  · rw [List.length_append]
    exact hroom

theorem Proper.ofNames (hregistry : Registry.ofNames names = .ok registry) : registry.Proper :=
  Proper.empty.register hregistry

/-! ### Bits -/

theorem getLsbD_bitAt (position other : Nat) :
    (bitAt position).getLsbD other = (decide (other < 32) && decide (position = other)) := by
  rw [bitAt, BitVec.getLsbD_shiftLeft, BitVec.getLsbD_one]
  by_cases hword : other < 32
  · simp only [hword, decide_true, Bool.true_and]
    rw [Bool.eq_iff_iff]
    simp only [Bool.and_eq_true, Bool.not_eq_true', decide_eq_false_iff_not, decide_eq_true_eq]
    omega
  · simp [hword]

theorem bitAt_ne_zero {position : Nat} (hposition : position < 32) : bitAt position ≠ 0#32 := by
  intro hzero
  have hbit := getLsbD_bitAt position position
  rw [hzero] at hbit
  simp [hposition] at hbit

theorem bitAt_injective {first second : Nat} (hfirst : first < 32) (hsame : bitAt first = bitAt second) :
    first = second := by
  have hbit := getLsbD_bitAt first first
  rw [hsame, getLsbD_bitAt] at hbit
  simpa [hfirst, eq_comm] using hbit

/-- Marking the names from a position on adds the bits from this position on, one for each name, as far as the word
reaches. -/
theorem getLsbD_foldl_bitAt (position : Nat) (names : List String) (first : Nat) (bits : BitVec 32) :
    (((names.zipIdx first).map fun entry => (bitAt entry.2, entry.1)).foldl
        (fun bits entry => bits ||| entry.1) bits).getLsbD position =
      (bits.getLsbD position ||
        (decide (position < 32) && decide (first ≤ position ∧ position < first + names.length))) := by
  induction names generalizing first bits with
  | nil =>
    have hnone : ¬ (first ≤ position ∧ position < first) := by omega
    simp [hnone]
  | cons name rest ih =>
    rw [List.zipIdx_cons, List.map_cons, List.foldl_cons, ih, BitVec.getLsbD_or, getLsbD_bitAt, Bool.or_assoc]
    congr 1
    by_cases hword : position < 32
    · by_cases hsame : first = position
      · simp [hword, hsame]
      · have hlater : (first + 1 ≤ position ∧ position < first + 1 + rest.length) ↔
            (first ≤ position ∧ position < first + (name :: rest).length) := by
          rw [List.length_cons]
          omega
        simp only [hword, hsame, hlater, decide_true, decide_false, Bool.and_false, Bool.false_or]
    · simp [hword]

theorem getLsbD_mask (registry : Registry) (position : Nat) :
    registry.mask.getLsbD position = (decide (position < 32) && decide (position < registry.names.length)) := by
  have hmask := getLsbD_foldl_bitAt position registry.names 0 0#32
  simpa [mask, entries] using hmask

def Covers (registry : Registry) (bits : BitVec 32) : Prop := bits &&& ~~~registry.mask = 0#32

theorem covers_bitAt {position : Nat} (hposition : position < registry.names.length) :
    registry.Covers (bitAt position) := by
  apply BitVec.eq_of_getLsbD_eq
  intro other hother
  rw [BitVec.getLsbD_and, BitVec.getLsbD_not, getLsbD_bitAt, getLsbD_mask]
  by_cases hsame : position = other
  · subst hsame
    simp [hother, hposition]
  · simp [hsame]

theorem covers_of_validate {bits : BitVec 32} (hvalid : registry.validate (.areas bits) = .ok ()) :
    registry.Covers bits := by
  unfold validate at hvalid
  dsimp only at hvalid
  split_ifs at hvalid with hstray
  exact hstray

/-! ### Names -/

theorem bitOf?_eq (registry : Registry) (name : String) : registry.bitOf? name =
    if name ∈ registry.names then some (bitAt (registry.names.idxOf name)) else none := by
  rw [bitOf?, List.idxOf_eq_getD_idxOf?]
  cases hposition : registry.names.idxOf? name with
  | none => rw [if_neg (List.idxOf?_eq_none_iff.mp hposition), Option.map_none]
  | some position =>
    have hname : name ∈ registry.names := by
      by_contra hnone
      rw [List.idxOf?_eq_none_iff.mpr hnone] at hposition
      cases hposition
    rw [if_pos hname, Option.map_some, Option.getD_some]

theorem Proper.scope_eq (hproper : registry.Proper) (hname : name ∈ registry.names) :
    registry.scope name = .ok (.areas (bitAt (registry.names.idxOf name))) := by
  have htrimmed := hproper.trimmed name hname
  have hspecific := (hproper.named name hname).2
  have hbit := registry.bitOf?_eq name
  rw [if_pos hname] at hbit
  unfold scope scopeOfNames
  rw [List.map_singleton, htrimmed, if_neg (by simpa using hspecific.symm), bitsOfNames, hbit]
  simp [bitsOfNames, Except.map]

theorem mem_names_of_bitOf? (hbit : (registry.bitOf? name).isSome = true) : name ∈ registry.names := by
  by_contra hname
  rw [bitOf?_eq, if_neg hname] at hbit
  cases hbit

end Registry

end Retrace
