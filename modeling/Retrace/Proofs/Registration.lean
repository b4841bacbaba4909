import Mathlib.Algebra.Group.Nat.Defs
import Retrace.Proofs.Registry

/-!
# Registration

Names are registered in batches, each of which is taken as a whole or refused as a whole. A registry is fixed by the
order of its names; `Index` keeps the same names together with a table for each direction of look-up and with the mask,
all of them brought up to date name by name, and it is shown that they never fall out of step.
-/

namespace Retrace.Registry

variable {registry after : Registry} {name : String} {bit : BitVec 32} {added batch : List String}
  {batches : List (List String)}

/-! ### Batches -/

theorem admits_append {first second : List String} : registry.Admits (first ++ second) ↔
    registry.Admits first ∧ Admits ⟨registry.names ++ first⟩ second := by
  constructor
  · rintro ⟨hnodup, hnew, hroom⟩
    rw [List.nodup_append'] at hnodup
    obtain ⟨hfirst, hsecond, hdisjoint⟩ := hnodup
    rw [List.length_append] at hroom
    refine ⟨⟨hfirst, fun name hname => hnew name (List.mem_append_left _ hname), by omega⟩, hsecond, ?_, ?_⟩
    · intro name hname
      obtain ⟨hsome, hspecific, hother⟩ := hnew name (List.mem_append_right _ hname)
      refine ⟨hsome, hspecific, fun htaken => ?_⟩
      rcases List.mem_append.mp htaken with hold | hearlier
      · exact hother hold
      · exact hdisjoint hearlier hname
    · rw [List.length_append]
      omega
  · rintro ⟨⟨hfirst, hnewFirst, -⟩, hsecond, hnewSecond, hroom⟩
    refine ⟨?_, ?_, ?_⟩
    · rw [List.nodup_append']
      refine ⟨hfirst, hsecond, fun name hearlier hname => ?_⟩
      exact (hnewSecond name hname).2.2 (List.mem_append_right _ hearlier)
    · intro name hname
      rcases List.mem_append.mp hname with hearlier | hlater
      · exact hnewFirst name hearlier
      · obtain ⟨hsome, hspecific, hother⟩ := hnewSecond name hlater
        exact ⟨hsome, hspecific, fun hold => hother (List.mem_append_left _ hold)⟩
    · rw [List.length_append] at hroom ⊢
      omega

/-- Two batches in one are accepted exactly when they are accepted one after the other, with the same result. -/
theorem register_append_iff {first second : List String} : registry.register (first ++ second) = .ok after ↔
    ∃ between, registry.register first = .ok between ∧ between.register second = .ok after := by
  simp only [register_eq_ok_iff, List.map_append, admits_append]
  constructor
  · rintro ⟨⟨hfirst, hsecond⟩, rfl⟩
    exact ⟨_, ⟨hfirst, rfl⟩, hsecond, by rw [List.append_assoc]⟩
  · rintro ⟨between, ⟨hfirst, rfl⟩, hsecond, rfl⟩
    exact ⟨⟨hfirst, hsecond⟩, by rw [List.append_assoc]⟩

theorem foldlM_register_iff (hroom : registry.names.length ≤ Scope.areaLimit) :
    batches.foldlM register registry = .ok after ↔ registry.register batches.flatten = .ok after := by
  induction batches generalizing registry with
  | nil =>
    rw [List.flatten_nil, register_eq_ok_iff, List.map_nil, List.append_nil]
    have hnothing : registry.Admits [] := ⟨List.nodup_nil, List.forall_mem_nil _, hroom⟩
    constructor
    · intro hsame
      exact ⟨hnothing, (Except.ok.inj hsame).symm⟩
    · rintro ⟨-, rfl⟩
      rfl
  | cons batch batches ih =>
    rw [List.flatten_cons, register_append_iff, List.foldlM_cons]
    cases hregister : registry.register batch with
    | error error =>
      constructor
      · intro hlater
        cases hlater
      · rintro ⟨between, hbetween, -⟩
        cases hbetween
    | ok between =>
      have hbetween : between.names.length ≤ Scope.areaLimit := by
        obtain ⟨hadmits, rfl⟩ := register_eq_ok_iff.mp hregister
        rw [List.length_append]
        exact hadmits.room
      constructor
      · intro hlater
        exact ⟨between, rfl, (ih hbetween).mp hlater⟩
      · rintro ⟨other, hother, hlater⟩
        obtain rfl := Except.ok.inj hother
        exact (ih hbetween).mpr hlater

/-! ### Look-ups -/

theorem toNat_bitAt {position : Nat} (hposition : position < 32) : (bitAt position).toNat = 2 ^ position := by
  have hfits : 2 ^ position < 2 ^ 32 := Nat.pow_lt_pow_right (by decide) hposition
  rw [bitAt, BitVec.toNat_shiftLeft, BitVec.toNat_ofNat, Nat.shiftLeft_eq, Nat.one_mod_eq_one.mpr (by decide),
    Nat.one_mul, Nat.mod_eq_of_lt hfits]

theorem lookup_eq_some_iff {names : List String} {first : Nat} (hroom : first + names.length ≤ 32) :
    ((names.zipIdx first).map fun entry => (bitAt entry.2, entry.1)).lookup bit = some name ↔
      ∃ position, names[position]? = some name ∧ bit = bitAt (first + position) := by
  induction names generalizing first with
  | nil => simp
  | cons other rest ih =>
    rw [List.length_cons] at hroom
    rw [List.zipIdx_cons, List.map_cons, List.lookup_cons]
    by_cases hbit : bit = bitAt first
    · subst hbit
      rw [beq_self_eq_true]
      constructor
      · intro hname
        exact ⟨0, hname, rfl⟩
      · rintro ⟨position, hname, hsame⟩
        have hposition : position = 0 := by
          have := bitAt_injective (by omega) hsame
          omega
        subst hposition
        exact hname
    · have hother : (bit == bitAt first) = false := by simpa using hbit
      rw [hother, ih (by omega)]
      constructor
      · rintro ⟨position, hname, hsame⟩
        exact ⟨position + 1, hname, by rw [hsame, Nat.add_right_comm, Nat.add_assoc]⟩
      · rintro ⟨position, hname, hsame⟩
        cases position with
        | zero => exact absurd hsame hbit
        | succ position => exact ⟨position, hname, by rw [hsame, Nat.add_right_comm, Nat.add_assoc]⟩

theorem nameOf?_eq_some_iff (hroom : registry.names.length ≤ 32) : registry.nameOf? bit = some name ↔
    ∃ position, registry.names[position]? = some name ∧ bit = bitAt position := by
  have hlookup : registry.nameOf? bit = some name ↔
      ∃ position, registry.names[position]? = some name ∧ bit = bitAt (0 + position) :=
    lookup_eq_some_iff (by rwa [Nat.zero_add])
  simpa only [Nat.zero_add] using hlookup

theorem bitOf?_eq_some_iff (hnodup : registry.names.Nodup) : registry.bitOf? name = some bit ↔
    ∃ position, registry.names[position]? = some name ∧ bit = bitAt position := by
  rw [bitOf?_eq]
  constructor
  · intro hbit
    split_ifs at hbit with hname
    exact ⟨_, List.getElem?_idxOf hname, (Option.some.inj hbit).symm⟩
  · rintro ⟨position, hname, rfl⟩
    obtain ⟨hposition, rfl⟩ := List.getElem?_eq_some_iff.mp hname
    rw [if_pos (List.getElem_mem hposition), hnodup.idxOf_getElem]

theorem toNat_mask (hroom : registry.names.length ≤ 32) : registry.mask.toNat = 2 ^ registry.names.length - 1 := by
  apply Nat.eq_of_testBit_eq
  intro position
  rw [BitVec.testBit_toNat, getLsbD_mask, Nat.testBit_two_pow_sub_one]
  by_cases hposition : position < registry.names.length
  · simp [hposition, hposition.trans_le hroom]
  · simp [hposition]

/-! ### One more name -/

theorem bitOf?_concat (name other : String) : bitOf? ⟨registry.names ++ [name]⟩ other =
    (registry.bitOf? other).or (if name = other then some (bitAt registry.names.length) else none) := by
  rw [bitOf?_eq, bitOf?_eq]
  by_cases hold : other ∈ registry.names
  · rw [if_pos (List.mem_append_left _ hold), if_pos hold, List.idxOf_append_of_mem hold]
    rfl
  · rw [if_neg hold, Option.none_or]
    by_cases hname : name = other
    · subst hname
      rw [if_pos (List.mem_append_right _ List.mem_cons_self), if_pos rfl, List.idxOf_append_of_notMem hold]
      simp
    · have hnone : other ∉ registry.names ++ [name] := by
        simpa [hold] using Ne.symm hname
      rw [if_neg hnone, if_neg hname]

theorem entries_concat (name : String) :
    entries ⟨registry.names ++ [name]⟩ = registry.entries ++ [(bitAt registry.names.length, name)] := by
  simp [entries, List.zipIdx_append]

theorem nameOf?_concat (name : String) (bit : BitVec 32) : nameOf? ⟨registry.names ++ [name]⟩ bit =
    (registry.nameOf? bit).or (if bit = bitAt registry.names.length then some name else none) := by
  rw [nameOf?, entries_concat, List.lookup_append, nameOf?]
  by_cases hbit : bit = bitAt registry.names.length
  · simp [hbit]
  · have hother : (bit == bitAt registry.names.length) = false := by simpa using hbit
    simp [hbit, List.lookup_cons, hother]

theorem mask_concat (name : String) :
    mask ⟨registry.names ++ [name]⟩ = registry.mask ||| bitAt registry.names.length := by
  rw [mask, entries_concat, List.foldl_append, mask]
  rfl

/-! ### The index of a registry -/

/-- Names with a table of their bits, a table of the bits' names and the mask of all bits. -/
structure Index where
  names : List String
  bits : Std.HashMap String (BitVec 32)
  owners : Std.TreeMap (BitVec 32) String
  mask : BitVec 32

namespace Index

def empty : Index := ⟨[], ∅, ∅, 0#32⟩

/-- The first reason to refuse names that follow others of the same batch. -/
def objection? (index : Index) (earlier : List String) : List String → Option EngineError
  | [] => none
  | name :: rest =>
    if name = "" then some (.invalid "scope name cannot be empty")
    else if name = Scope.wildcardName then some (.reservedScopeName name)
    else if index.bits.contains name || earlier.contains name then some (.duplicateScope name)
    else index.objection? (earlier ++ [name]) rest

/-- Gives a name the next bit, in every table. -/
def enter (index : Index) (name : String) : Index :=
  let bit := bitAt index.names.length
  { names := index.names ++ [name]
    bits := index.bits.insert name bit
    owners := index.owners.insert bit name
    mask := index.mask ||| bit }

/-- Adds a batch of names in place. What has been entered when an error is met stays. -/
def register (batch : List String) : ExceptT EngineError (StateM Index) Unit := do
  let added := batch.map trimName
  let index ← get
  match index.objection? [] added with
  | some error => throw error
  | none =>
    let count := index.names.length + added.length
    if Scope.areaLimit < count then throw (.tooManyScopes count Scope.areaLimit)
    else added.forM fun name => modify fun index => index.enter name

def offer (index : Index) (batch : List String) : Index := ((register batch).run.run index).2

structure Shows (index : Index) (registry : Registry) : Prop where
  names : index.names = registry.names
  bits : ∀ name, index.bits[name]? = registry.bitOf? name
  owners : ∀ bit, index.owners[bit]? = registry.nameOf? bit
  mask : index.mask = registry.mask

variable {index : Index}

private theorem shows_empty : Index.empty.Shows Registry.empty where
  names := rfl
  bits := fun name => by simp [Index.empty, bitOf?, Registry.empty]
  owners := fun bit => by simp [Index.empty, nameOf?, entries, Registry.empty]
  mask := rfl

private theorem objection?_eq {earlier taken names : List String}
    (htaken : ∀ name, name ∈ taken ↔ index.bits.contains name = true ∨ name ∈ earlier) :
    index.objection? earlier names = Registry.objection? taken names := by
  induction names generalizing earlier taken with
  | nil => rfl
  | cons name rest ih =>
    rw [objection?, Registry.objection?]
    have hsame : (index.bits.contains name || earlier.contains name) = true ↔ name ∈ taken := by
      rw [Bool.or_eq_true, List.contains_iff_mem, htaken]
    simp only [hsame]
    rw [ih]
    intro other
    rw [List.mem_cons, htaken, List.mem_append, List.mem_singleton]
    tauto

theorem Shows.objection?_eq (hshows : index.Shows registry) (names : List String) :
    index.objection? [] names = Registry.objection? registry.names names := by
  refine Index.objection?_eq fun name => ?_
  rw [Std.HashMap.contains_eq_isSome_getElem?, hshows.bits, bitOf?_eq]
  split_ifs with hname <;> simp [hname]

private theorem Shows.enter (hshows : index.Shows registry) (hnew : name ∉ registry.names)
    (hroom : registry.names.length < 32) : (index.enter name).Shows ⟨registry.names ++ [name]⟩ where
  names := by rw [Index.enter, hshows.names]
  bits := by
    intro other
    rw [Index.enter, Std.HashMap.getElem?_insert, hshows.names, hshows.bits, bitOf?_concat]
    by_cases hname : name = other
    · subst hname
      rw [registry.bitOf?_eq, if_neg hnew]
      simp
    · simp [hname]
  owners := by
    intro bit
    rw [Index.enter, Std.TreeMap.getElem?_insert, hshows.names, hshows.owners, nameOf?_concat]
    by_cases hbit : bit = bitAt registry.names.length
    · -- the next bit has no name yet
      have hfree : registry.nameOf? bit = none := by
        rw [Option.eq_none_iff_forall_ne_some]
        intro owner howner
        obtain ⟨position, hposition, hsame⟩ := (nameOf?_eq_some_iff hroom.le).mp howner
        have hlength := (List.getElem?_eq_some_iff.mp hposition).1
        have := bitAt_injective hroom (hbit.symm.trans hsame)
        omega
      rw [hfree]
      simp [hbit]
    · have hother : compare (bitAt registry.names.length) bit ≠ .eq := fun hsame =>
        hbit (Std.LawfulEqOrd.eq_of_compare hsame).symm
      simp [hbit, hother]
  mask := by rw [Index.enter, hshows.mask, hshows.names, mask_concat]

private theorem Shows.enterAll (hshows : index.Shows registry) (hadmits : registry.Admits added) :
    (added.foldl Index.enter index).Shows ⟨registry.names ++ added⟩ := by
  induction added generalizing index registry with
  | nil =>
    rw [List.append_nil]
    exact hshows
  | cons name rest ih =>
    obtain ⟨hname, hrest⟩ := admits_append.mp (show registry.Admits ([name] ++ rest) from hadmits)
    have hroom := hname.room
    rw [List.length_singleton, Scope.areaLimit] at hroom
    have hentered := hshows.enter (hname.new name List.mem_cons_self).2.2 (by omega)
    have hall := ih hentered hrest
    rw [List.append_assoc] at hall
    exact hall

private theorem run_enterAll (names : List String) (index : Index) :
    (names.forM (m := ExceptT EngineError (StateM Index)) fun name => modify fun index => index.enter name).run.run
      index = (.ok (), names.foldl Index.enter index) := by
  induction names generalizing index with
  | nil => rfl
  | cons name rest ih => exact ih (index.enter name)

theorem run_register_eq (batch : List String) (index : Index) : (register batch).run.run index =
    match index.objection? [] (batch.map trimName) with
    | some error => (.error error, index)
    | none =>
      if Scope.areaLimit < index.names.length + (batch.map trimName).length then
        (.error (.tooManyScopes (index.names.length + (batch.map trimName).length) Scope.areaLimit), index)
      else (.ok (), (batch.map trimName).foldl Index.enter index) := by
  have hrun : (register batch).run.run index =
      (match index.objection? [] (batch.map trimName) with
        | some error => throw error
        | none =>
          let count := index.names.length + (batch.map trimName).length
          if Scope.areaLimit < count then throw (.tooManyScopes count Scope.areaLimit)
          else (batch.map trimName).forM (m := ExceptT EngineError (StateM Index)) fun name =>
            modify fun index => index.enter name : ExceptT EngineError (StateM Index) Unit).run.run index := rfl
  rw [hrun]
  cases index.objection? [] (batch.map trimName) with
  | some error => rfl
  | none =>
    dsimp only
    split_ifs
    · rfl
    · exact run_enterAll ..

theorem Shows.run_accepted (hshows : index.Shows registry) (hadmits : registry.Admits (batch.map trimName)) :
    (register batch).run.run index = (.ok (), (batch.map trimName).foldl Index.enter index) := by
  rw [run_register_eq, hshows.objection?_eq, hshows.names, objection?_eq_none_iff.mpr ⟨hadmits.nodup, hadmits.new⟩]
  exact if_neg (Nat.not_lt.mpr hadmits.room)

/-- An index that shows a registry answers a batch as the registry does: if the batch is accepted it shows the new
registry, and if not, nothing has changed in it. -/
theorem Shows.run_register (hshows : index.Shows registry) (batch : List String) :
    match registry.register batch with
    | .error error => (register batch).run.run index = (.error error, index)
    | .ok after => ∃ next, (register batch).run.run index = (.ok (), next) ∧ next.Shows after := by
  cases hregister : registry.register batch with
  | ok after =>
    obtain ⟨hadmits, rfl⟩ := register_eq_ok_iff.mp hregister
    exact ⟨_, hshows.run_accepted hadmits, hshows.enterAll hadmits⟩
  | error error =>
    have hrun := run_register_eq batch index
    rw [hshows.objection?_eq, hshows.names] at hrun
    unfold Registry.register at hregister
    dsimp only at hregister ⊢
    split at hregister
    · next first hfirst =>
      obtain rfl := Except.error.inj hregister
      rw [hrun, hfirst]
    · next hnone =>
      split_ifs at hregister with hmany
      obtain rfl := Except.error.inj hregister
      rw [hrun, hnone]
      exact if_pos hmany

end Index

/-! ### All batches -/

def offer (registry : Registry) (batch : List String) : Registry :=
  match registry.register batch with
  | .ok after => after
  | .error _ => registry

private theorem Proper.offer (hproper : registry.Proper) (batch : List String) : (registry.offer batch).Proper := by
  unfold Registry.offer
  split
  · next hregister => exact hproper.register hregister
  · exact hproper

private theorem Index.Shows.offer {index : Index} (hshows : index.Shows registry) (batch : List String) :
    (index.offer batch).Shows (registry.offer batch) := by
  have hrun := hshows.run_register batch
  unfold Registry.offer Index.offer
  cases hregister : registry.register batch with
  | error error =>
    rw [hregister] at hrun
    dsimp only at hrun ⊢
    rw [hrun]
    exact hshows
  | ok after =>
    rw [hregister] at hrun
    obtain ⟨next, hrun, hnext⟩ := hrun
    rw [hrun]
    exact hnext

theorem shows_offers (batches : List (List String)) :
    (batches.foldl offer empty).Proper ∧ (batches.foldl Index.offer Index.empty).Shows (batches.foldl offer empty) := by
  induction batches using List.reverseRecOn with
  | nil => exact ⟨Proper.empty, Index.shows_empty⟩
  | append_singleton batches batch ih =>
    rw [List.foldl_concat, List.foldl_concat]
    exact ⟨ih.1.offer batch, ih.2.offer batch⟩

/-- What is said of a registry and of the index that is kept beside it. -/
structure Coherent (registry : Registry) (index : Index) : Prop where
  /-- The names are different, trimmed, neither empty nor that of the wildcard, and no more than there are areas. -/
  proper : registry.Proper
  /-- The name at a position has the bit of this position, and no other text has a bit. -/
  bits : ∀ name bit, registry.bitOf? name = some bit ↔
    ∃ position, registry.names[position]? = some name ∧ bit.toNat = 2 ^ position
  /-- The bit of a position has the name at this position, and no other word has a name. -/
  owners : ∀ bit name, registry.nameOf? bit = some name ↔
    ∃ position, registry.names[position]? = some name ∧ bit.toNat = 2 ^ position
  mask : registry.mask.toNat = 2 ^ registry.names.length - 1
  /-- The tables of the index have the same names, bits and mask. -/
  shown : index.Shows registry
  /-- A batch is accepted exactly when its trimmed names can be added. -/
  accepted : ∀ batch, (∃ after, registry.register batch = .ok after) ↔ registry.Admits (batch.map trimName)
  /-- The names of an accepted batch come after the others, in their order. -/
  added : ∀ batch after, registry.register batch = .ok after → after.names = registry.names ++ batch.map trimName
  /-- The index gives the same answers; it goes along with an accepted batch, and a refused one changes nothing in it. -/
  answered : ∀ batch,
    match registry.register batch with
    | .error error => (Index.register batch).run.run index = (.error error, index)
    | .ok after => ∃ next, (Index.register batch).run.run index = (.ok (), next) ∧ next.Shows after
  /-- Batches are accepted one after the other exactly when they are accepted at once, with the same result. -/
  joined : ∀ (batches : List (List String)) (after : Registry),
    batches.foldlM register registry = .ok after ↔ registry.register batches.flatten = .ok after

/-- **A registry stays coherent** over every sequence of batches, some of them accepted and some refused. -/
theorem coherent_offers (batches : List (List String)) :
    Coherent (batches.foldl offer empty) (batches.foldl Index.offer Index.empty) := by
  obtain ⟨hproper, hshows⟩ := shows_offers batches
  generalize batches.foldl offer empty = registry at hproper hshows ⊢
  have hroom : registry.names.length ≤ 28 := hproper.room
  have hpositions : ∀ name bit, (∃ position, registry.names[position]? = some name ∧ bit = bitAt position) ↔
      ∃ position, registry.names[position]? = some name ∧ bit.toNat = 2 ^ position := by
    intro name bit
    refine exists_congr fun position => and_congr_right fun hname => ?_
    have hposition := (List.getElem?_eq_some_iff.mp hname).1
    have hbit : (bitAt position).toNat = 2 ^ position := toNat_bitAt (by omega)
    rw [← hbit, BitVec.toNat_inj]
  exact {
    proper := hproper
    bits := fun name bit => (bitOf?_eq_some_iff hproper.nodup).trans (hpositions name bit)
    owners := fun bit name => (nameOf?_eq_some_iff (by omega)).trans (hpositions name bit)
    mask := toNat_mask (by omega)
    shown := hshows
    accepted := by
      intro batch
      constructor
      · rintro ⟨after, hregister⟩
        exact (register_eq_ok_iff.mp hregister).1
      · exact fun hadmits => ⟨_, register_eq_ok_iff.mpr ⟨hadmits, rfl⟩⟩
    added := fun batch after hregister => congrArg names (register_eq_ok_iff.mp hregister).2
    answered := hshows.run_register
    joined := fun batches after => foldlM_register_iff hroom }

end Retrace.Registry
