import Retrace.Proofs.Registration

/-!
# The positions of areas

An area gets its bit in two ways: from a position, and from the number of names that were registered before its own. Both
are made once more with a shift that fails outside the word (`bit?`), and no shift ever fails. The two ways agree on the
position of every registered name. A position that is refused is counted in a machine word, which has room for every
count but that of the last position: there the addition overflows, and no answer is given.
-/

namespace Retrace

/-! ### Shifts that can fail -/

def bit? (position : Nat) : Option (BitVec 32) := if position < 32 then some (1#32 <<< position) else none

theorem bit?_eq_some_iff {position : Nat} {bit : BitVec 32} :
    bit? position = some bit ↔ position < 32 ∧ bit = Registry.bitAt position := by
  unfold bit?
  split_ifs with hword
  · rw [and_iff_right hword, Option.some.injEq, eq_comm]
    exact Iff.rfl
  · simp [hword]

namespace Scope

variable {position : UInt64}

/-- The scope of the area at a position, or nothing if its bit is outside the word. -/
def flag? (position : UInt64) : Option (Except EngineError Scope) :=
  if position.toNat < areaLimit then (bit? position.toNat).map fun bit => .ok (areas bit)
  else (countUpTo? position).map fun count => .error (.tooManyScopes count.toNat areaLimit)

theorem flag?_eq (position : UInt64) : flag? position = flag position := by
  unfold flag? flag
  split_ifs with harea
  · have hword : position.toNat < 32 := harea.trans (by decide)
    rw [bit?_eq_some_iff.mpr ⟨hword, rfl⟩]
    rfl
  · rfl

private theorem exists_flag_iff : (∃ scope, flag position = some (.ok scope)) ↔ position.toNat < areaLimit := by
  simp only [flag_eq_ok_iff, exists_and_left, exists_eq, and_true]

theorem flag_eq_refused_iff (hbeyond : areaLimit ≤ position.toNat) :
    flag position = some (.error (.tooManyScopes (position.toNat + 1) areaLimit)) ↔
      position.toNat + 1 < UInt64.size := by
  rw [flag, if_neg (Nat.not_lt.mpr hbeyond), countUpTo?]
  split_ifs with hnext
  · have hcount : (position + 1).toNat = position.toNat + 1 := by
      rw [UInt64.toNat_add]
      exact Nat.mod_eq_of_lt hnext
    simp [hcount, hnext]
  · simp [hnext]

theorem flag_eq_none_iff : flag position = none ↔ position.toNat + 1 = UInt64.size := by
  have hword : position.toNat < UInt64.size := position.toNat_lt
  unfold flag countUpTo?
  split_ifs with harea hnext
  · have hsmall : areaLimit + 1 < UInt64.size := by decide
    simp
    omega
  · simp
    omega
  · simp
    omega

end Scope

namespace Registry

variable {registry : Registry} {index : Index} {name : String} {position : UInt64}

namespace Index

/-- Gives a name the next bit, in every table, or nothing if that bit is outside the word. -/
def enter? (index : Index) (name : String) : Option Index :=
  (bit? index.names.length).map fun bit =>
    { names := index.names ++ [name]
      bits := index.bits.insert name bit
      owners := index.owners.insert bit name
      mask := index.mask ||| bit }

/-- Adds a batch of names in place, or comes to nothing at the first bit outside the word. -/
def register? (batch : List String) : ExceptT EngineError (StateT Index Option) Unit := do
  let added := batch.map trimName
  let index ← get
  match index.objection? [] added with
  | some error => throw error
  | none =>
    let count := index.names.length + added.length
    if Scope.areaLimit < count then throw (.tooManyScopes count Scope.areaLimit)
    else added.forM fun name => ExceptT.mk fun index => (index.enter? name).map fun next => (.ok (), next)

private theorem enter?_eq (hword : index.names.length < 32) (name : String) :
    index.enter? name = some (index.enter name) := by
  rw [enter?, bit?_eq_some_iff.mpr ⟨hword, rfl⟩]
  rfl

theorem run_enterAll? {names : List String} (hroom : index.names.length + names.length ≤ 32) :
    (names.forM (m := ExceptT EngineError (StateT Index Option)) fun name => ExceptT.mk fun index =>
      (index.enter? name).map fun next => (.ok (), next)).run.run index = some (.ok (), names.foldl enter index) := by
  induction names generalizing index with
  | nil => rfl
  | cons name rest ih =>
    rw [List.length_cons] at hroom
    have hlength : (index.enter name).names.length = index.names.length + 1 := List.length_append
    rw [List.foldl_cons, ← ih (by omega)]
    show ((index.enter? name).map fun next => (Except.ok (), next)).bind _ = _
    rw [enter?_eq (by omega)]
    rfl

theorem run_register?_eq (batch : List String) (index : Index) :
    (register? batch).run.run index = some ((register batch).run.run index) := by
  have hrun : (register? batch).run.run index =
      (match index.objection? [] (batch.map trimName) with
        | some error => throw error
        | none =>
          let count := index.names.length + (batch.map trimName).length
          if Scope.areaLimit < count then throw (.tooManyScopes count Scope.areaLimit)
          else (batch.map trimName).forM fun name => ExceptT.mk fun index =>
            (index.enter? name).map fun next => (.ok (), next) :
              ExceptT EngineError (StateT Index Option) Unit).run.run index := rfl
  rw [hrun, run_register_eq]
  cases index.objection? [] (batch.map trimName) with
  | some error => rfl
  | none =>
    dsimp only
    split_ifs with hmany
    · rfl
    · exact run_enterAll? ((Nat.le_of_not_lt hmany).trans (by decide))

end Index

/-- What is said of a position, of a registry and of the index that is kept beside it. -/
structure Positioned (registry : Registry) (index : Index) (position : UInt64) : Prop where
  /-- A position is taken exactly if there is an area at it. -/
  taken : (∃ scope, Scope.flag position = some (.ok scope)) ↔ position.toNat < Scope.areaLimit
  /-- At the position of a registered name is the area of this name, with the bit that registration gave to it. -/
  named : ∀ name, registry.names[position.toNat]? = some name → ∃ bit, Scope.flag position = some (.ok (.areas bit)) ∧
    registry.scope name = .ok (.areas bit) ∧ index.bits[name]? = some bit ∧ bit.toNat = 2 ^ position.toNat
  /-- Every other position is refused with the count of the positions up to this one, exactly if the next position is a
  machine word, too. -/
  refused : Scope.areaLimit ≤ position.toNat →
    (Scope.flag position = some (.error (.tooManyScopes (position.toNat + 1) Scope.areaLimit)) ↔
      position.toNat + 1 < UInt64.size)
  /-- There is no answer exactly at the last position. -/
  unanswered : Scope.flag position = none ↔ position.toNat + 1 = UInt64.size
  /-- No shift for a position is outside the word. -/
  shifted : Scope.flag? position = Scope.flag position
  /-- No shift for the names of a batch is outside the word. -/
  entered : ∀ batch, (Index.register? batch).run.run index = some ((Index.register batch).run.run index)

/-- **Positions and names agree on the bits**, whatever batches have been offered: an area has the same bit by its position
and by its name, no shift leaves the word, and of the positions without an area only the last gets no answer. -/
theorem positioned_offers (batches : List (List String)) (position : UInt64) :
    Positioned (batches.foldl offer empty) (batches.foldl Index.offer Index.empty) position := by
  obtain ⟨hproper, hshows⟩ := shows_offers batches
  generalize batches.foldl offer empty = registry at hproper hshows ⊢
  generalize batches.foldl Index.offer Index.empty = index at hshows ⊢
  exact {
    taken := Scope.exists_flag_iff
    named := by
      intro name hname
      obtain ⟨hposition, rfl⟩ := List.getElem?_eq_some_iff.mp hname
      have hscope := hproper.scope_eq (List.getElem_mem hposition)
      rw [hproper.nodup.idxOf_getElem] at hscope
      have hflag := Scope.flag_eq_ok_iff.mpr ⟨hposition.trans_le hproper.room, rfl⟩
      refine ⟨bitAt position.toNat, hflag, hscope, ?_, ?_⟩
      · rw [hshows.bits, bitOf?_eq_some_iff hproper.nodup]
        exact ⟨position.toNat, hname, rfl⟩
      · exact toNat_bitAt (hposition.trans_le (hproper.room.trans (by decide)))
    refused := Scope.flag_eq_refused_iff
    unanswered := Scope.flag_eq_none_iff
    shifted := Scope.flag?_eq position
    entered := fun batch => Index.run_register?_eq batch index }

def lastPosition : UInt64 := 0xFFFFFFFFFFFFFFFF

/-- The last position is not refused with a count. -/
theorem not_always_counted : ¬ ∀ position : UInt64, Scope.areaLimit ≤ position.toNat →
    Scope.flag position = some (.error (.tooManyScopes (position.toNat + 1) Scope.areaLimit)) := by
  intro hcounted
  exact absurd (hcounted lastPosition (by decide)) (by decide)

end Registry

end Retrace
