import Retrace.Proofs.Destinations
import Retrace.Proofs.Registration

/-!
# Names and areas

A scope is told from the names of its areas, and these names are told from the scope. A word marks some names when its
bits are those of their areas (`Marks`), whatever their order and however often they are listed; everything that is said
here about names and scopes goes through this relation. Its main statements: names and scopes translate both ways, and a
filter selects a scope exactly when the two have a name in common.
-/

namespace Retrace

theorem Scope.selects_union (left right scope : Scope) :
    (left.union right).selects scope = (left.selects scope || right.selects scope) := by
  cases left with
  | all => rw [all_union, all_selects, Bool.true_or]
  | areas left =>
    cases right with
    | all => rw [union_all, all_selects, Bool.or_true]
    | areas right =>
      cases scope with
      | all => simp only [selects_all, Bool.or_true]
      | areas bits =>
        rw [areas_union_areas, areas_selects_areas, areas_selects_areas, areas_selects_areas, Bool.eq_iff_iff,
          BitVec.and_or_distrib_right]
        simp only [bne_iff_ne, ne_eq, BitVec.or_eq_zero_iff, Bool.or_eq_true, not_and_or]

namespace Registry

variable {registry : Registry} {name : String} {names first second : List String} {bits left right : BitVec 32}
  {position : Nat} {scope : Scope}

/-- A registry that batches of names lead to, some of them accepted and some refused. -/
def Reachable (registry : Registry) : Prop := ∃ batches : List (List String), batches.foldl offer empty = registry

theorem Reachable.proper (hreachable : registry.Reachable) : registry.Proper := by
  obtain ⟨batches, rfl⟩ := hreachable
  exact (shows_offers batches).1

/-! ### Words that mark names -/

def Marks (registry : Registry) (bits : BitVec 32) (names : List String) : Prop :=
  ∀ position, bits.getLsbD position = true ↔ ∃ name ∈ names, registry.names[position]? = some name

private theorem Marks.unique (hleft : registry.Marks left names) (hright : registry.Marks right names) :
    left = right :=
  BitVec.eq_of_getLsbD_eq fun position _ => Bool.eq_iff_iff.mpr ((hleft position).trans (hright position).symm)

theorem marks_nil (registry : Registry) : registry.Marks 0#32 [] := fun position => by simp

theorem Marks.append (hleft : registry.Marks left first) (hright : registry.Marks right second) :
    registry.Marks (left ||| right) (first ++ second) := by
  intro position
  rw [BitVec.getLsbD_or, Bool.or_eq_true, hleft, hright]
  simp only [List.mem_append, or_and_right, exists_or]

private theorem Proper.length_le (hproper : registry.Proper) : registry.names.length ≤ 32 :=
  hproper.room.trans (by decide)

theorem Proper.lt_of_getElem? (hproper : registry.Proper) (hname : registry.names[position]? = some name) :
    position < 32 :=
  (List.getElem?_eq_some_iff.mp hname).1.trans_le hproper.length_le

theorem Proper.position_eq (hproper : registry.Proper) {other : Nat} (hname : registry.names[position]? = some name)
    (hother : registry.names[other]? = some name) : other = position := by
  have hlength := (List.getElem?_eq_some_iff.mp hother).1
  exact (List.getElem?_inj hlength hproper.nodup).mp (hother.trans hname.symm)

theorem Proper.marks_bitAt (hproper : registry.Proper) (hname : registry.names[position]? = some name) :
    registry.Marks (bitAt position) [name] := by
  intro other
  have hword := hproper.lt_of_getElem? hname
  rw [getLsbD_bitAt, Bool.and_eq_true, decide_eq_true_eq, decide_eq_true_eq]
  simp only [List.mem_singleton, exists_eq_left]
  constructor
  · rintro ⟨-, rfl⟩
    exact hname
  · intro hother
    obtain rfl := hproper.position_eq hname hother
    exact ⟨hword, rfl⟩

/-! ### From names to a word -/

theorem Proper.exists_bitsOfNames (hproper : registry.Proper) (hknown : ∀ name ∈ names, name ∈ registry.names) :
    ∃ bits, registry.bitsOfNames names = .ok bits ∧ registry.Marks bits names := by
  induction names with
  | nil => exact ⟨0#32, rfl, marks_nil registry⟩
  | cons name rest ih =>
    obtain ⟨hname, hrest⟩ := List.forall_mem_cons.mp hknown
    obtain ⟨bits, hbits, hmarks⟩ := ih hrest
    have hbit := registry.bitOf?_eq name
    rw [if_pos hname] at hbit
    refine ⟨bitAt (registry.names.idxOf name) ||| bits, ?_, ?_⟩
    · rw [bitsOfNames, hbit, hbits]
      rfl
    · exact (hproper.marks_bitAt (List.getElem?_idxOf hname)).append hmarks

private theorem mem_names_of_bitsOfNames (hbits : registry.bitsOfNames names = .ok bits) :
    ∀ name ∈ names, name ∈ registry.names := by
  induction names generalizing bits with
  | nil => exact List.forall_mem_nil _
  | cons name rest ih =>
    rw [bitsOfNames] at hbits
    cases hbit : registry.bitOf? name with
    | none =>
      rw [hbit] at hbits
      cases hbits
    | some bit =>
      rw [hbit] at hbits
      cases hrest : registry.bitsOfNames rest with
      | error error =>
        rw [hrest] at hbits
        cases hbits
      | ok others => exact List.forall_mem_cons.mpr ⟨mem_names_of_bitOf? (by rw [hbit]; rfl), ih hrest⟩

private theorem Proper.bitsOfNames_eq_ok_iff (hproper : registry.Proper) : registry.bitsOfNames names = .ok bits ↔
    (∀ name ∈ names, name ∈ registry.names) ∧ registry.Marks bits names := by
  constructor
  · intro hbits
    have hknown := mem_names_of_bitsOfNames hbits
    obtain ⟨marked, hmarked, hmarks⟩ := hproper.exists_bitsOfNames hknown
    obtain rfl := Except.ok.inj (hmarked.symm.trans hbits)
    exact ⟨hknown, hmarks⟩
  · rintro ⟨hknown, hmarks⟩
    obtain ⟨marked, hmarked, hothers⟩ := hproper.exists_bitsOfNames hknown
    rw [hmarks.unique hothers, hmarked]

/-- What some names stand for: everything if the wildcard is one of them, else the areas of the names. -/
inductive StandFor (registry : Registry) (names : List String) : Scope → Prop where
  | everything (hwildcard : Scope.wildcardName ∈ names) : StandFor registry names .all
  | areas (hspecific : Scope.wildcardName ∉ names) (hknown : ∀ name ∈ names, name ∈ registry.names) {bits : BitVec 32}
      (hmarks : registry.Marks bits names) : StandFor registry names (.areas bits)

theorem Proper.scopeOfNames_eq_ok_iff (hproper : registry.Proper) :
    registry.scopeOfNames names = .ok scope ↔ registry.StandFor (names.map trimName) scope := by
  unfold scopeOfNames
  dsimp only
  generalize names.map trimName = listed
  constructor
  · intro hscope
    split_ifs at hscope with hwildcard
    · obtain rfl := Except.ok.inj hscope
      exact .everything hwildcard
    · cases hbits : registry.bitsOfNames listed with
      | error error =>
        rw [hbits] at hscope
        cases hscope
      | ok bits =>
        rw [hbits] at hscope
        obtain rfl := Except.ok.inj hscope
        obtain ⟨hknown, hmarks⟩ := hproper.bitsOfNames_eq_ok_iff.mp hbits
        exact .areas hwildcard hknown hmarks
  · intro hstand
    cases hstand with
    | everything hwildcard => rw [if_pos hwildcard]
    | areas hspecific hknown hmarks =>
      rw [if_neg hspecific, hproper.bitsOfNames_eq_ok_iff.mpr ⟨hknown, hmarks⟩]
      rfl

/-! ### From a word to its names -/

private theorem and_bitAt_bne_zero (hword : position < 32) (bits : BitVec 32) :
    (bits &&& bitAt position != 0#32) = bits.getLsbD position := by
  have hbit : bitAt position ≠ 0#32 := bitAt_ne_zero hword
  rw [bitAt, ← BitVec.twoPow_eq] at hbit ⊢
  rw [BitVec.and_twoPow]
  cases bits.getLsbD position <;> simp [hbit]

theorem Proper.namesFor_areas (hproper : registry.Proper) (bits : BitVec 32) : registry.namesFor (.areas bits) =
    (registry.names.zipIdx.filter fun entry => bits.getLsbD entry.2).map Prod.fst := by
  rw [namesFor, entries, List.filter_map, List.map_map]
  refine congrArg (List.map Prod.fst) (List.filter_congr fun entry hmem => ?_)
  exact and_bitAt_bne_zero (hproper.lt_of_getElem? (List.mem_zipIdx_iff_getElem?.mp hmem)) bits

theorem Proper.mem_namesFor (hproper : registry.Proper) : name ∈ registry.namesFor (.areas bits) ↔
    ∃ position, registry.names[position]? = some name ∧ bits.getLsbD position = true := by
  rw [hproper.namesFor_areas]
  simp [List.mem_zipIdx_iff_getElem?]

theorem Proper.namesFor_sublist (hproper : registry.Proper) (bits : BitVec 32) :
    (registry.namesFor (.areas bits)).Sublist registry.names := by
  have hsublist := (List.filter_sublist (p := fun entry => bits.getLsbD entry.2) (l := registry.names.zipIdx)).map Prod.fst
  rwa [List.zipIdx_map_fst, ← hproper.namesFor_areas] at hsublist

theorem covers_iff : registry.Covers bits ↔
    ∀ position, bits.getLsbD position = true → position < registry.names.length := by
  unfold Covers
  constructor
  · intro hcovers position hbit
    have hstray := congrArg (fun word : BitVec 32 => word.getLsbD position) hcovers
    have hword : position < 32 := BitVec.lt_of_getLsbD hbit
    simp only [BitVec.getLsbD_and, BitVec.getLsbD_not, getLsbD_mask, BitVec.getLsbD_zero, hbit, hword, decide_true,
      Bool.true_and] at hstray
    simpa using hstray
  · intro hlength
    refine BitVec.eq_of_getLsbD_eq fun position hword => ?_
    rw [BitVec.getLsbD_and, BitVec.getLsbD_not, getLsbD_mask]
    cases hbit : bits.getLsbD position with
    | false => simp
    | true => simp [hword, hlength position hbit]

theorem validate_areas_iff : registry.validate (.areas bits) = .ok () ↔ registry.Covers bits := by
  refine ⟨covers_of_validate, fun hcovers => ?_⟩
  unfold validate
  exact if_pos hcovers

private theorem covers_of_bitsOfNames (hbits : registry.bitsOfNames names = .ok bits) : registry.Covers bits := by
  induction names generalizing bits with
  | nil =>
    obtain rfl := Except.ok.inj hbits
    exact BitVec.zero_and
  | cons name rest ih =>
    have hbit := registry.bitOf?_eq name
    rw [bitsOfNames] at hbits
    split_ifs at hbit with hname
    · rw [hbit] at hbits
      cases hrest : registry.bitsOfNames rest with
      | error error =>
        rw [hrest] at hbits
        cases hbits
      | ok others =>
        rw [hrest] at hbits
        obtain rfl := Except.ok.inj hbits
        have hfirst := covers_bitAt (List.idxOf_lt_length_of_mem hname)
        have hothers := ih hrest
        unfold Covers at hfirst hothers ⊢
        rw [BitVec.and_or_distrib_right, hfirst, hothers, BitVec.or_self]
    · rw [hbit] at hbits
      cases hbits

theorem validate_of_scopeOfNames (hscope : registry.scopeOfNames names = .ok scope) : registry.validate scope = .ok () := by
  unfold scopeOfNames at hscope
  dsimp only at hscope
  split_ifs at hscope
  · obtain rfl := Except.ok.inj hscope
    rfl
  · cases hbits : registry.bitsOfNames (names.map trimName) with
    | error error =>
      rw [hbits] at hscope
      cases hscope
    | ok bits =>
      rw [hbits] at hscope
      obtain rfl := Except.ok.inj hscope
      exact validate_areas_iff.mpr (covers_of_bitsOfNames hbits)

theorem Proper.marks_namesFor (hproper : registry.Proper) (hcovers : registry.Covers bits) :
    registry.Marks bits (registry.namesFor (.areas bits)) := by
  intro position
  constructor
  · intro hbit
    have hname := List.getElem?_eq_getElem (covers_iff.mp hcovers position hbit)
    exact ⟨_, hproper.mem_namesFor.mpr ⟨position, hname, hbit⟩, hname⟩
  · rintro ⟨name, hmem, hname⟩
    obtain ⟨other, hother, hbit⟩ := hproper.mem_namesFor.mp hmem
    rwa [← hproper.position_eq hname hother]

private theorem Marks.covers (hmarks : registry.Marks bits names) : registry.Covers bits := by
  refine covers_iff.mpr fun position hbit => ?_
  obtain ⟨name, -, hname⟩ := (hmarks position).mp hbit
  exact (List.getElem?_eq_some_iff.mp hname).1

theorem Proper.mem_namesFor_of_marks (hproper : registry.Proper) (hmarks : registry.Marks bits names)
    (hknown : ∀ name ∈ names, name ∈ registry.names) : name ∈ registry.namesFor (.areas bits) ↔ name ∈ names := by
  rw [hproper.mem_namesFor]
  constructor
  · rintro ⟨position, hname, hbit⟩
    obtain ⟨other, hother, hsame⟩ := (hmarks position).mp hbit
    rwa [Option.some.inj (hname.symm.trans hsame)]
  · intro hmem
    have hname := List.getElem?_idxOf (hknown name hmem)
    exact ⟨_, hname, (hmarks _).mpr ⟨name, hmem, hname⟩⟩

theorem map_trimName_of_trimmed (htrimmed : ∀ name ∈ names, trimName name = name) : names.map trimName = names :=
  (List.map_congr_left htrimmed).trans (List.map_id names)

private theorem Proper.map_trimName_eq (hproper : registry.Proper) (hknown : ∀ name ∈ names, name ∈ registry.names) :
    names.map trimName = names :=
  map_trimName_of_trimmed fun name hmem => hproper.trimmed name (hknown name hmem)

private theorem Proper.wildcard_not_mem (hproper : registry.Proper) (hknown : ∀ name ∈ names, name ∈ registry.names) :
    Scope.wildcardName ∉ names :=
  fun hmem => (hproper.named _ (hknown _ hmem)).2 rfl

private theorem trimName_wildcardName : trimName Scope.wildcardName = Scope.wildcardName := by decide

theorem Proper.standFor_namesFor (hproper : registry.Proper) (hvalid : registry.validate scope = .ok ()) :
    registry.StandFor ((registry.namesFor scope).map trimName) scope := by
  cases scope with
  | all =>
    refine .everything ?_
    rw [namesFor, List.map_singleton, trimName_wildcardName]
    exact List.mem_singleton_self _
  | areas bits =>
    have hknown := (hproper.namesFor_sublist bits).subset
    rw [hproper.map_trimName_eq hknown]
    exact .areas (hproper.wildcard_not_mem hknown) hknown (hproper.marks_namesFor (validate_areas_iff.mp hvalid))

/-! ### Both ways -/

/-- What is said of the names of a registry and of the scopes that they stand for. -/
structure Translates (registry : Registry) : Prop where
  /-- An accepted scope is that of its names. -/
  back : ∀ scope, registry.validate scope = .ok () → registry.scopeOfNames (registry.namesFor scope) = .ok scope
  /-- The wildcard stands for everything, whatever is listed beside it. -/
  wildcard : ∀ names, Scope.wildcardName ∈ names.map trimName → registry.scopeOfNames names = .ok .all
  /-- Without it the names are refused exactly if one of them is not registered, with the first such. -/
  unknown : ∀ names error, Scope.wildcardName ∉ names.map trimName →
    (registry.scopeOfNames names = .error error ↔ registry.Unknown (names.map trimName) error)
  /-- Registered names give an accepted scope, whose names are those that were listed, each once and in the order of
  registration. -/
  known : ∀ names, Scope.wildcardName ∉ names.map trimName → (∀ name ∈ names.map trimName, name ∈ registry.names) →
    ∃ scope, registry.scopeOfNames names = .ok scope ∧ registry.validate scope = .ok () ∧
      (registry.namesFor scope).Nodup ∧ (registry.namesFor scope).Sublist registry.names ∧
      ∀ name, name ∈ registry.namesFor scope ↔ name ∈ names.map trimName

/-- **Names and scopes translate both ways** in every registry that registrations lead to. -/
theorem translates_both_ways (hreachable : registry.Reachable) : registry.Translates := by
  have hproper := hreachable.proper
  constructor
  · exact fun scope hvalid => hproper.scopeOfNames_eq_ok_iff.mpr (hproper.standFor_namesFor hvalid)
  · exact fun names hwildcard => hproper.scopeOfNames_eq_ok_iff.mpr (.everything hwildcard)
  · intro names error hspecific
    rw [scopeOfNames_eq_error_iff, and_iff_right hspecific]
  · intro names hspecific hknown
    obtain ⟨bits, -, hmarks⟩ := hproper.exists_bitsOfNames hknown
    have hsublist := hproper.namesFor_sublist bits
    exact ⟨.areas bits, hproper.scopeOfNames_eq_ok_iff.mpr (.areas hspecific hknown hmarks),
      validate_areas_iff.mpr hmarks.covers, hproper.nodup.sublist hsublist, hsublist,
      fun name => hproper.mem_namesFor_of_marks hmarks hknown⟩

/-- Three names from two batches, and one batch that is refused. -/
def sampleRegistry : Registry := [["brand", " car "], ["lot", "car"], ["owner"]].foldl offer empty

theorem sampleRegistry_reachable : sampleRegistry.Reachable := ⟨_, rfl⟩

/-- Names with blanks, out of order and repeated; an unknown one; and the wildcard beside it. -/
theorem translates_both_ways_sample :
    sampleRegistry.Reachable ∧ sampleRegistry.names = ["brand", "car", "owner"] ∧ sampleRegistry.Translates ∧
      (sampleRegistry.scopeOfNames ["owner", " brand", "owner "]).map sampleRegistry.namesFor =
        .ok ["brand", "owner"] ∧
      sampleRegistry.scopeOfNames ["car", " lot", "key"] = .error (.unknownScope "lot") ∧
      sampleRegistry.scopeOfNames ["lot", "all "] = .ok .all :=
  ⟨sampleRegistry_reachable, by decide, translates_both_ways sampleRegistry_reachable, by decide, by decide, by decide⟩

/-! ### Names in common -/

private theorem Marks.sharesArea_iff (hleft : registry.Marks left first) (hright : registry.Marks right second) :
    (Scope.areas right).SharesArea (.areas left) ↔ ∃ name ∈ registry.names, name ∈ first ∧ name ∈ second := by
  constructor
  · rintro ⟨_, _, position, hareas, hothers, hbitRight, hbitLeft⟩
    obtain rfl := Scope.areas.inj hareas
    obtain rfl := Scope.areas.inj hothers
    obtain ⟨name, hfirst, hname⟩ := (hleft position).mp hbitLeft
    obtain ⟨other, hsecond, hother⟩ := (hright position).mp hbitRight
    obtain rfl := Option.some.inj (hname.symm.trans hother)
    exact ⟨name, List.mem_of_getElem? hname, hfirst, hsecond⟩
  · rintro ⟨name, hname, hfirst, hsecond⟩
    have hposition := List.getElem?_idxOf hname
    exact ⟨right, left, _, rfl, rfl, (hright _).mpr ⟨name, hsecond, hposition⟩, (hleft _).mpr ⟨name, hfirst, hposition⟩⟩

theorem StandFor.selects_iff {filter : Scope} (hfilter : registry.StandFor first filter)
    (hscope : registry.StandFor second scope) : filter.selects scope = true ↔
      Scope.wildcardName ∈ first ∨ Scope.wildcardName ∈ second ∨
        ∃ name ∈ registry.names, name ∈ first ∧ name ∈ second := by
  cases hfilter with
  | everything hwildcard => simp [hwildcard]
  | areas hspecific hknown hmarks =>
    cases hscope with
    | everything hwildcard => simp [hwildcard]
    | areas hother hothers hmarksToo =>
      rw [Scope.selects_iff_sharesArea, hmarks.sharesArea_iff hmarksToo]
      simp only [hspecific, hother, false_or]

private theorem StandFor.union {other : Scope} (hscope : registry.StandFor first scope)
    (hother : registry.StandFor second other) : registry.StandFor (first ++ second) (scope.union other) := by
  cases hscope with
  | everything hwildcard =>
    rw [Scope.all_union]
    exact .everything (List.mem_append_left _ hwildcard)
  | areas hspecific hknown hmarks =>
    cases hother with
    | everything hwildcard =>
      rw [Scope.union_all]
      exact .everything (List.mem_append_right _ hwildcard)
    | areas hspecificToo hknownToo hmarksToo =>
      exact .areas (fun hmem => (List.mem_append.mp hmem).elim hspecific hspecificToo)
        (List.forall_mem_append.mpr ⟨hknown, hknownToo⟩) (hmarks.append hmarksToo)

/-- What is said of two lists of names and of the scopes that they stand for. -/
structure Matching (registry : Registry) (first second : List String) (left right : Scope) : Prop where
  /-- The one selects the other if the wildcard is in one of the lists, or a registered name is in both. -/
  selects : left.selects right = true ↔
    Scope.wildcardName ∈ first.map trimName ∨ Scope.wildcardName ∈ second.map trimName ∨
      ∃ name ∈ registry.names, name ∈ first.map trimName ∧ name ∈ second.map trimName
  /-- Both lists together stand for the union. -/
  union : registry.scopeOfNames (first ++ second) = .ok (left.union right)
  /-- The union selects what one of the two selects. -/
  either : ∀ scope, (left.union right).selects scope = true ↔ left.selects scope = true ∨ right.selects scope = true

/-- **Matching by areas is matching by names** in every registry that registrations lead to. -/
theorem matching_by_names (hreachable : registry.Reachable) {left right : Scope}
    (hleft : registry.scopeOfNames first = .ok left) (hright : registry.scopeOfNames second = .ok right) :
    registry.Matching first second left right := by
  have hproper := hreachable.proper
  have hfilter := hproper.scopeOfNames_eq_ok_iff.mp hleft
  have hscope := hproper.scopeOfNames_eq_ok_iff.mp hright
  constructor
  · exact hfilter.selects_iff hscope
  · rw [hproper.scopeOfNames_eq_ok_iff, List.map_append]
    exact hfilter.union hscope
  · intro scope
    rw [Scope.selects_union, Bool.or_eq_true]

/-- Two lists with one name in common, which one of them has twice. -/
theorem matching_by_names_sample :
    sampleRegistry.scopeOfNames ["owner", " brand", "brand"] = .ok (.areas 5#32) ∧
      sampleRegistry.scopeOfNames ["car", "brand "] = .ok (.areas 3#32) ∧
      sampleRegistry.Matching ["owner", " brand", "brand"] ["car", "brand "] (.areas 5#32) (.areas 3#32) ∧
      (Scope.areas 5#32).selects (.areas 3#32) = true :=
  ⟨by decide, by decide, matching_by_names sampleRegistry_reachable (by decide) (by decide), by decide⟩

end Registry

end Retrace
