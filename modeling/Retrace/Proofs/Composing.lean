import Retrace.Proofs.Resolution

/-!
# Scopes that are put together

A scope is made from the position of an area, from a word, from names, from a text with names, or as the union of others.
Everything and the set of all areas have the same bits. Only the reading of a word takes the one for the other; names and
unions that end up with every area give the set, from which a route may go. It is told here, for every way in which a
scope is put together, which of the two comes out.
-/

namespace Retrace

namespace Scope

theorem getLsbD_everyArea (position : Nat) : everyArea.getLsbD position = decide (position < areaLimit) := by
  rw [everyArea, BitVec.getLsbD_ofNat, show 0x0FFFFFFF = 2 ^ areaLimit - 1 from rfl, Nat.testBit_two_pow_sub_one,
    areaLimit, Bool.eq_iff_iff, Bool.and_eq_true, decide_eq_true_eq, decide_eq_true_eq]
  omega

theorem and_everyArea_eq_iff {bits : BitVec 32} :
    bits &&& everyArea = everyArea ↔ ∀ position < areaLimit, bits.getLsbD position = true := by
  constructor
  · intro hall position hposition
    have hbit := congrArg (fun word : BitVec 32 => word.getLsbD position) hall
    simpa [getLsbD_everyArea, hposition] using hbit
  · intro hall
    refine BitVec.eq_of_getLsbD_eq fun position _ => ?_
    rw [BitVec.getLsbD_and, getLsbD_everyArea]
    by_cases hposition : position < areaLimit
    · simp [hposition, hall position hposition]
    · simp [hposition]

theorem and_everyArea_of_lt {bits : BitVec 32} (hareas : ∀ position, bits.getLsbD position = true → position < areaLimit) :
    bits &&& everyArea = bits := by
  refine BitVec.eq_of_getLsbD_eq fun position _ => ?_
  rw [BitVec.getLsbD_and, getLsbD_everyArea]
  cases hbit : bits.getLsbD position with
  | false => rw [Bool.false_and]
  | true => rw [Bool.true_and, decide_eq_true (hareas position hbit)]

end Scope

namespace Registry

variable {registry : Registry} {names : List String} {position : Nat} {scope : Scope}

/-! ### Ways to put a scope together -/

/-- A way in which a scope is put together. -/
inductive Recipe where
  | area (position : UInt64)
  | word (bits : BitVec 32)
  | listed (names : List String)
  | written (text : String)
  | union (left right : Recipe)
  deriving DecidableEq

namespace Recipe

/-- The scope that is put together, or the first reason why there is none, if the first part that fails gives one. -/
def make (registry : Registry) : Recipe → Option (Except EngineError Scope)
  | area position => Scope.flag position
  | word bits => some (.ok (Scope.ofBits bits))
  | listed names => some (registry.scopeOfNames names)
  | written text => some (registry.scopeOfText text)
  | union left right =>
    match left.make registry with
    | none => none
    | some (.error error) => some (.error error)
    | some (.ok scope) => (right.make registry).map fun made => made.map scope.union

/-- Whether some part stands for everything: a word with every area, or the name of the wildcard. -/
def Wild : Recipe → Prop
  | area _ => False
  | word bits => bits &&& Scope.everyArea = Scope.everyArea
  | listed names => Scope.wildcardName ∈ names.map trimName
  | written text => Scope.wildcardName ∈ namesOf text
  | union left right => left.Wild ∨ right.Wild

/-- Whether some part has the area at a position. -/
def Has (registry : Registry) (position : Nat) : Recipe → Prop
  | area only => only.toNat = position
  | word bits => bits.getLsbD position = true ∧ position < Scope.areaLimit
  | listed names => ∃ name ∈ names.map trimName, registry.names[position]? = some name
  | written text => ∃ name ∈ namesOf text, registry.names[position]? = some name
  | union left right => left.Has registry position ∨ right.Has registry position

variable {recipe left right : Recipe}

/-- What is said of the scope that is put together: it is everything if some part stands for everything, else the set of
the areas that the parts have. -/
inductive Made (registry : Registry) (recipe : Recipe) : Scope → Prop where
  | everything (hwild : recipe.Wild) : Made registry recipe .all
  | areas (htame : ¬ recipe.Wild) {bits : BitVec 32}
      (hbits : ∀ position, bits.getLsbD position = true ↔ recipe.Has registry position)
      (hareas : ∀ position, recipe.Has registry position → position < Scope.areaLimit) : Made registry recipe (.areas bits)

private theorem made_area {only : UInt64} (hmake : Scope.flag only = some (.ok scope)) :
    Made registry (.area only) scope := by
  obtain ⟨honly, rfl⟩ := Scope.flag_eq_ok_iff.mp hmake
  have hword : only.toNat < 32 := honly.trans (by decide)
  refine .areas id (fun position => ?_) fun position hhas => hhas ▸ honly
  rw [← bitAt, getLsbD_bitAt, Bool.and_eq_true, decide_eq_true_eq, decide_eq_true_eq]
  exact ⟨fun hbit => hbit.2, fun hhas => ⟨hhas ▸ hword, hhas⟩⟩

private theorem made_word (registry : Registry) (bits : BitVec 32) :
    Made registry (.word bits) (Scope.ofBits bits) := by
  unfold Scope.ofBits
  split_ifs with hall
  · exact .everything hall
  · refine .areas (show ¬ Wild (.word bits) from hall) (fun position => ?_) fun position hhas => hhas.2
    rw [BitVec.getLsbD_and, Scope.getLsbD_everyArea, Bool.and_eq_true, decide_eq_true_eq]
    exact Iff.rfl

theorem made_of_standFor (hproper : registry.Proper) (hstand : registry.StandFor names scope)
    (hwild : recipe.Wild ↔ Scope.wildcardName ∈ names)
    (hhas : ∀ position, recipe.Has registry position ↔ ∃ name ∈ names, registry.names[position]? = some name) :
    Made registry recipe scope := by
  cases hstand with
  | everything hwildcard => exact .everything (hwild.mpr hwildcard)
  | areas hspecific hknown hmarks =>
    refine .areas (mt hwild.mp hspecific) (fun position => (hmarks position).trans (hhas position).symm) ?_
    intro position hposition
    obtain ⟨name, -, hname⟩ := (hhas position).mp hposition
    exact (List.getElem?_eq_some_iff.mp hname).1.trans_le hproper.room

private theorem Made.union {first second : Scope} (hfirst : Made registry left first)
    (hsecond : Made registry right second) : Made registry (.union left right) (first.union second) := by
  cases hfirst with
  | everything hwild =>
    rw [Scope.all_union]
    exact .everything (.inl hwild)
  | areas htame hbits hareas =>
    cases hsecond with
    | everything hwild =>
      rw [Scope.union_all]
      exact .everything (.inr hwild)
    | areas hothers hother hreach =>
      rw [Scope.areas_union_areas]
      have hspecific : ¬ Wild (.union left right) := not_or.mpr ⟨htame, hothers⟩
      refine .areas hspecific (fun position => ?_) fun position hhas => ?_
      · rw [BitVec.getLsbD_or, Bool.or_eq_true, hbits, hother]
        exact Iff.rfl
      · exact hhas.elim (hareas position) (hreach position)

theorem make_union_eq_ok_iff : (union left right).make registry = some (.ok scope) ↔
    ∃ first second, left.make registry = some (.ok first) ∧ right.make registry = some (.ok second) ∧
      scope = first.union second := by
  rw [make]
  constructor
  · intro hmake
    split at hmake
    · cases hmake
    · cases hmake
    · next first hfirst =>
      obtain ⟨result, hresult, hmap⟩ := Option.map_eq_some_iff.mp hmake
      cases result with
      | error error => cases hmap
      | ok second => exact ⟨first, second, hfirst, hresult, (Except.ok.inj hmap).symm⟩
  · rintro ⟨first, second, hfirst, hsecond, rfl⟩
    rw [hfirst, hsecond]
    rfl

theorem made_of_make (hproper : registry.Proper) (hmake : recipe.make registry = some (.ok scope)) :
    Made registry recipe scope := by
  induction recipe generalizing scope with
  | area only => exact made_area hmake
  | word bits => exact Except.ok.inj (Option.some.inj hmake) ▸ made_word registry bits
  | listed names =>
    have hstand := hproper.scopeOfNames_eq_ok_iff.mp (Option.some.inj hmake)
    exact made_of_standFor hproper hstand Iff.rfl fun position => Iff.rfl
  | written text =>
    have hstand := hproper.scopeOfText_eq_ok_iff.mp (Option.some.inj hmake)
    exact made_of_standFor hproper hstand Iff.rfl fun position => Iff.rfl
  | union left right ihleft ihright =>
    obtain ⟨first, second, hfirst, hsecond, rfl⟩ := make_union_eq_ok_iff.mp hmake
    exact (ihleft hfirst).union (ihright hsecond)

/-! ### Everything and every area -/

theorem Made.eq_all_iff (hmade : Made registry recipe scope) : scope = .all ↔ recipe.Wild := by
  cases hmade with
  | everything hwild => exact iff_of_true rfl hwild
  | areas htame => exact iff_of_false nofun htame

/-- Only everything and sets of areas come out, and a set is known by its bits. -/
theorem Made.eq_areas (hmade : Made registry recipe scope) (htame : ¬ recipe.Wild) : scope = .areas scope.bits := by
  cases hmade with
  | everything hwild => exact absurd hwild htame
  | areas => rfl

theorem Made.and_everyArea (hmade : Made registry recipe scope) : scope.bits &&& Scope.everyArea = scope.bits := by
  cases hmade with
  | everything => exact BitVec.and_self
  | areas _ hbits hareas => exact Scope.and_everyArea_of_lt fun position hbit => hareas position ((hbits position).mp hbit)

theorem Made.bits_eq_everyArea_iff (hmade : Made registry recipe scope) : scope.bits = Scope.everyArea ↔
    recipe.Wild ∨ ∀ position < Scope.areaLimit, recipe.Has registry position := by
  have hword := hmade.and_everyArea
  cases hmade with
  | everything hwild => exact iff_of_true rfl (.inl hwild)
  | areas htame hbits =>
    rw [Scope.bits] at hword ⊢
    rw [or_iff_right htame, ← hword, Scope.and_everyArea_eq_iff]
    simp only [hbits]

theorem Made.ofBits_bits (hmade : Made registry recipe scope) :
    Scope.ofBits scope.bits = if scope.bits = Scope.everyArea then .all else scope := by
  rw [Scope.ofBits, hmade.and_everyArea]
  cases hmade with
  | everything => rfl
  | areas => rfl

private theorem Made.ofBits_bits_eq_iff (hmade : Made registry recipe scope) : Scope.ofBits scope.bits = scope ↔
    recipe.Wild ∨ ∃ position < Scope.areaLimit, ¬ recipe.Has registry position := by
  rw [hmade.ofBits_bits]
  split_ifs with hall
  · rw [eq_comm, hmade.eq_all_iff, iff_self_or]
    rintro ⟨position, hposition, hmissing⟩
    exact (hmade.bits_eq_everyArea_iff.mp hall).resolve_right fun hevery => hmissing (hevery position hposition)
  · refine iff_of_true rfl (.inr ?_)
    have hmissing := mt hmade.bits_eq_everyArea_iff.mpr hall
    push Not at hmissing
    exact hmissing.2

end Recipe

/-! ### Routes from every area -/

theorem Proper.covers_everyArea_iff (hproper : registry.Proper) :
    registry.Covers Scope.everyArea ↔ registry.names.length = Scope.areaLimit := by
  rw [covers_iff]
  simp only [Scope.getLsbD_everyArea, decide_eq_true_eq]
  have hroom := hproper.room
  constructor
  · intro hcovers
    by_contra hless
    exact absurd (hcovers registry.names.length (by omega)) (Nat.lt_irrefl _)
  · intro hfull position hposition
    omega

private theorem route_everyArea (hproper : registry.Proper) {engine : Engine} (hregistry : engine.registry = registry)
    (stack : StackId) : (engine.route (.areas Scope.everyArea) stack).1 = .ok () ↔
      registry.names.length = Scope.areaLimit := by
  have hsome : ¬ ((Scope.areas Scope.everyArea).isAll || (Scope.areas Scope.everyArea).isEmpty) = true := by decide
  rw [← hproper.covers_everyArea_iff, ← validate_areas_iff, Engine.route, hregistry]
  cases hvalid : registry.validate (.areas Scope.everyArea) with
  | error error => exact iff_of_false (fun hrouted => by cases hrouted) (fun hvalid => by cases hvalid)
  | ok =>
    dsimp only
    rw [if_neg hsome]

private theorem strayText_ne (registry : Registry) (bits : BitVec 32) :
    registry.strayText bits ≠ "routes need a specific, non-empty scope" := by
  intro hsame
  have hfirst := congrArg (fun text => text.toList.head?) hsame
  simp [strayText, toString] at hfirst

theorem route_eq_general_iff (engine : Engine) (hbits : scope.bits = Scope.everyArea) (stack : StackId) :
    (engine.route scope stack).1 = .error (.invalid "routes need a specific, non-empty scope") ↔ scope = .all := by
  rw [Engine.route_eq_error_iff]
  constructor
  · intro hrefusal
    cases hrefusal with
    | stray hstray =>
      obtain ⟨bits, -, -, htext⟩ := hstray
      exact absurd (EngineError.invalid.inj htext).symm (strayText_ne engine.registry bits)
    | general hgeneral =>
      refine hgeneral.resolve_right ?_
      rintro rfl
      exact absurd hbits (by decide)
  · rintro rfl
    exact .general (.inl rfl)

/-! ### What comes out -/

/-- What is said of the scopes that are put together over a registry. -/
structure Composes (registry : Registry) : Prop where
  /-- Everything comes out exactly if some part stands for everything. -/
  everything : ∀ recipe scope, Recipe.make registry recipe = some (.ok scope) → (scope = .all ↔ recipe.Wild)
  /-- The bits lead back to the scope exactly if some part stands for everything or some area is in no part. -/
  back : ∀ recipe scope, Recipe.make registry recipe = some (.ok scope) → (Scope.ofBits scope.bits = scope ↔
    recipe.Wild ∨ ∃ position < Scope.areaLimit, ¬ recipe.Has registry position)
  /-- Two scopes with the same bits are the same exactly if either both have a part that stands for everything or neither
  has. -/
  same : ∀ left right first second,
    Recipe.make registry left = some (.ok first) → Recipe.make registry right = some (.ok second) →
    first.bits = second.bits → (first = second ↔ (left.Wild ↔ right.Wild))
  /-- A scope with the bits of every area is refused by a route as everything is exactly if some part stands for
  everything. If none does, it is taken exactly if all areas have names. -/
  routed : ∀ recipe scope, Recipe.make registry recipe = some (.ok scope) → scope.bits = Scope.everyArea →
    ∀ (engine : Engine) (stack : StackId), engine.registry = registry →
      ((engine.route scope stack).1 = .error (.invalid "routes need a specific, non-empty scope") ↔ recipe.Wild) ∧
      ((engine.route scope stack).1 = .ok () ↔ ¬ recipe.Wild ∧ registry.names.length = Scope.areaLimit)

/-- **Which scopes their bits lead back to**, however they are put together: all but the set of every area. -/
theorem leads_back_unless_every_area (hreachable : registry.Reachable) : registry.Composes := by
  have hproper := hreachable.proper
  constructor
  · exact fun recipe scope hmake => (Recipe.made_of_make hproper hmake).eq_all_iff
  · exact fun recipe scope hmake => (Recipe.made_of_make hproper hmake).ofBits_bits_eq_iff
  · intro left right first second hleft hright hbits
    have hfirst := Recipe.made_of_make hproper hleft
    have hsecond := Recipe.made_of_make hproper hright
    constructor
    · rintro rfl
      rw [← hfirst.eq_all_iff, ← hsecond.eq_all_iff]
    · intro hsame
      by_cases hwild : left.Wild
      · rw [hfirst.eq_all_iff.mpr hwild, hsecond.eq_all_iff.mpr (hsame.mp hwild)]
      · rw [hfirst.eq_areas hwild, hsecond.eq_areas (mt hsame.mpr hwild), hbits]
  · intro recipe scope hmake hbits engine stack hregistry
    have hmade := Recipe.made_of_make hproper hmake
    have hgeneral := (route_eq_general_iff engine hbits stack).trans hmade.eq_all_iff
    refine ⟨hgeneral, ?_⟩
    by_cases hwild : recipe.Wild
    · rw [hgeneral.mpr hwild]
      exact iff_of_false nofun fun htame => htame.1 hwild
    · rw [and_iff_right hwild, hmade.eq_areas hwild, hbits, route_everyArea hproper hregistry]

def everyName : List String :=
  ["a", "b", "c", "d", "e", "f", "g", "h", "i", "j", "k", "l", "m", "n", "o", "p", "q", "r", "s", "t", "u", "v", "w", "x",
    "y", "z", "aa", "ab"]

def fullRegistry : Registry := empty.offer everyName

theorem fullRegistry_reachable : fullRegistry.Reachable := ⟨[everyName], rfl⟩

/-- All names at once give the set of every area, and a route from it is taken; with the wildcard among them they give
everything. -/
theorem leads_back_unless_every_area_full :
    fullRegistry.Reachable ∧ fullRegistry.Composes ∧ fullRegistry.names.length = Scope.areaLimit ∧
      Recipe.make fullRegistry (.listed everyName) = some (.ok (.areas Scope.everyArea)) ∧
      Recipe.make fullRegistry (.union (.listed everyName) (.word Scope.everyArea)) = some (.ok .all) ∧
      ((Engine.start fullRegistry [] ⟨"default"⟩ 0 1).route (.areas Scope.everyArea) ⟨"side"⟩).1 = .ok () :=
  ⟨fullRegistry_reachable, leads_back_unless_every_area fullRegistry_reachable, by decide +kernel, by decide +kernel,
    by decide +kernel, by decide +kernel⟩

/-- The bits of a scope do not always lead back to it. -/
theorem not_always_led_back : ¬ ∀ (registry : Registry) (recipe : Recipe) (scope : Scope), registry.Reachable →
    recipe.make registry = some (.ok scope) → Scope.ofBits scope.bits = scope := by
  intro hback
  have hmake : Recipe.make fullRegistry (.listed everyName) = some (.ok (.areas Scope.everyArea)) := by decide +kernel
  exact absurd (hback fullRegistry (.listed everyName) _ fullRegistry_reachable hmake) (by decide)

end Registry

end Retrace
