import Retrace.Proofs.Naming
import Retrace.Proofs.Words

/-!
# Names in a text

A text names areas by their names, with commas or blanks between them. Registration trims the ends of a name and takes
whatever is left, so a name may have separators inside; in a text such a name falls apart. What the names of a scope
give when they are read back is told here for every registry, and from this it follows for which scopes and names the
text leads back to where it came from.
-/

namespace Retrace.Registry

variable {registry : Registry} {name text : String} {names : List String} {scope : Scope}

def Unbroken (name : String) : Prop := ∀ character ∈ name.toList, separates character = false

instance (name : String) : Decidable (Unbroken name) :=
  decidable_of_iff (name.toList.all (fun character => !separates character) = true) (by simp [Unbroken])

def listing (names : List String) : String := ",".intercalate names

/-! ### The names of a text -/

private theorem separates_of_isBlank {character : Char} (hblank : Text.isBlank character = true) :
    separates character = true := by
  rw [separates, hblank, Bool.or_true]

theorem unbroken_of_mem_namesOf (hmem : name ∈ namesOf text) : Unbroken name := by
  obtain ⟨piece, hpiece, rfl⟩ := List.mem_map.mp hmem
  rw [Unbroken, String.toList_ofList]
  exact Text.separator_of_mem_wordsBy hpiece

private theorem unbroken_wildcardName : Unbroken Scope.wildcardName := by decide

theorem Unbroken.trimName_eq (hunbroken : Unbroken name) : trimName name = name := by
  have hsolid : ∀ character ∈ name.toList, Text.isBlank character = false := by
    intro character hmem
    by_contra hblank
    rw [Bool.not_eq_false] at hblank
    exact absurd (hunbroken character hmem) (by rw [separates_of_isBlank hblank]; decide)
  rw [trimName, Text.trim_of_ends, String.ofList_toList]
  · exact fun first hfirst => hsolid first (List.mem_of_mem_head? hfirst)
  · exact fun last hlast => hsolid last (List.mem_of_getLast? hlast)

theorem map_trimName_namesOf (text : String) : (namesOf text).map trimName = namesOf text :=
  map_trimName_of_trimmed fun _ hmem => (unbroken_of_mem_namesOf hmem).trimName_eq

private theorem namesOf_of_unbroken (hsome : name ≠ "") (hunbroken : Unbroken name) : namesOf name = [name] := by
  have hpiece : name.toList ≠ [] := fun hnil => hsome (String.toList_eq_nil_iff.mp hnil)
  rw [namesOf, Text.wordsBy_eq_singleton hpiece hunbroken, List.map_singleton, String.ofList_toList]

private theorem namesOf_append_comma (first second : String) :
    namesOf (first ++ "," ++ second) = namesOf first ++ namesOf second := by
  have hcomma : separates ',' = true := by decide
  rw [namesOf, namesOf, namesOf, String.toList_append, String.toList_append, List.append_assoc]
  rw [show ",".toList ++ second.toList = ',' :: second.toList from rfl, Text.wordsBy_append_cons hcomma, List.map_append]

/-- In the text of some names each name falls into its own pieces, whatever the others are. -/
theorem namesOf_listing (names : List String) : namesOf (listing names) = names.flatMap namesOf := by
  induction names with
  | nil => rfl
  | cons name rest ih =>
    rw [listing] at ih ⊢
    by_cases hrest : rest = []
    · rw [hrest, String.intercalate_singleton, List.flatMap_singleton]
    · rw [String.intercalate_cons_of_ne_nil hrest, namesOf_append_comma, ih, List.flatMap_cons]

private theorem namesOf_listing_of_unbroken (hsome : ∀ name ∈ names, name ≠ "")
    (hunbroken : ∀ name ∈ names, Unbroken name) : namesOf (listing names) = names := by
  rw [namesOf_listing, List.flatMap_congr fun name hmem => namesOf_of_unbroken (hsome name hmem) (hunbroken name hmem),
    List.flatMap_singleton']

/-! ### The scope of a text -/

theorem Proper.scopeOfText_eq_ok_iff (hproper : registry.Proper) :
    registry.scopeOfText text = .ok scope ↔ registry.StandFor (namesOf text) scope := by
  rw [scopeOfText, hproper.scopeOfNames_eq_ok_iff, map_trimName_namesOf]

theorem Proper.mem_of_standFor (hproper : registry.Proper) (hstand : registry.StandFor names scope)
    (hname : name ∈ registry.namesFor scope) : name ∈ names := by
  cases hstand with
  | everything hwildcard => exact List.mem_singleton.mp hname ▸ hwildcard
  | areas _ hknown hmarks => exact (hproper.mem_namesFor_of_marks hmarks hknown).mp hname

private theorem Proper.ne_empty_of_mem_namesFor (hproper : registry.Proper)
    (hname : name ∈ registry.namesFor scope) : name ≠ "" := by
  cases scope with
  | all =>
    rw [List.mem_singleton.mp hname]
    decide
  | areas bits => exact (hproper.named name ((hproper.namesFor_sublist bits).subset hname)).1

/-- The names of an accepted scope lead back to it if and only if a text breaks none of them. -/
theorem Proper.scopeOfText_listing_iff (hproper : registry.Proper) (hvalid : registry.validate scope = .ok ()) :
    registry.scopeOfText (listing (registry.namesFor scope)) = .ok scope ↔
      ∀ name ∈ registry.namesFor scope, Unbroken name := by
  rw [hproper.scopeOfText_eq_ok_iff]
  constructor
  · intro hstand name hname
    exact unbroken_of_mem_namesOf (hproper.mem_of_standFor hstand hname)
  · intro hunbroken
    have hstand := hproper.standFor_namesFor hvalid
    rw [map_trimName_of_trimmed fun name hname => (hunbroken name hname).trimName_eq] at hstand
    rwa [namesOf_listing_of_unbroken (fun name => hproper.ne_empty_of_mem_namesFor) hunbroken]

theorem Proper.namesFor_bitAt (hproper : registry.Proper) (hname : name ∈ registry.names) :
    registry.namesFor (.areas (bitAt (registry.names.idxOf name))) = [name] := by
  have hmarks := hproper.marks_bitAt (List.getElem?_idxOf hname)
  have hnodup := hproper.nodup.sublist (hproper.namesFor_sublist (bitAt (registry.names.idxOf name)))
  refine List.perm_singleton.mp ((List.perm_ext_iff_of_nodup hnodup (List.nodup_singleton name)).mpr fun other => ?_)
  exact hproper.mem_namesFor_of_marks hmarks (List.forall_mem_singleton.mpr hname)

private theorem Proper.scopeOfText_name_iff (hproper : registry.Proper) (hname : name ∈ registry.names) :
    registry.scopeOfText name = registry.scope name ↔ Unbroken name := by
  have hposition : registry.names.idxOf name < registry.names.length := List.idxOf_lt_length_of_mem hname
  have hvalid := validate_areas_iff.mpr (covers_bitAt hposition)
  have hlisting := hproper.scopeOfText_listing_iff hvalid
  rw [hproper.namesFor_bitAt hname, listing, String.intercalate_singleton, List.forall_mem_singleton] at hlisting
  rw [hproper.scope_eq hname, hlisting]

/-- A registry that was made from a text has no name that a text breaks, so that every scope is read back. -/
theorem scopeOfText_listing_of_ofText (hregistry : ofText text = .ok registry) (hvalid : registry.validate scope = .ok ()) :
    registry.scopeOfText (listing (registry.namesFor scope)) = .ok scope := by
  have hproper : registry.Proper := Proper.ofNames hregistry
  obtain ⟨-, rfl⟩ := register_eq_ok_iff.mp hregistry
  refine (hproper.scopeOfText_listing_iff hvalid).mpr fun name hname => ?_
  cases scope with
  | all =>
    rw [List.mem_singleton.mp hname]
    exact unbroken_wildcardName
  | areas bits =>
    have hmem := (hproper.namesFor_sublist bits).subset hname
    rw [map_trimName_namesOf] at hmem
    exact unbroken_of_mem_namesOf hmem

/-- What is said of the texts that name the scopes of a registry. -/
structure ReadsBack (registry : Registry) : Prop where
  /-- An accepted scope is read back from the text of its names exactly if no separator stands in any of them. -/
  listed : ∀ scope, registry.validate scope = .ok () →
    (registry.scopeOfText (listing (registry.namesFor scope)) = .ok scope ↔
      ∀ name ∈ registry.namesFor scope, Unbroken name)
  /-- Whatever names are joined, what is read are their pieces, all of them as names of their own. -/
  pieces : ∀ names, registry.scopeOfText (listing names) = registry.scopeOfNames (names.flatMap namesOf)
  /-- A registered name, as a text, stands for its own area exactly if no separator stands in it. -/
  single : ∀ name ∈ registry.names, (registry.scopeOfText name = registry.scope name ↔ Unbroken name)

/-- **A scope is read back from the text of its names** when a text breaks none of them, and only then. -/
theorem reads_back_iff_unbroken (hreachable : registry.Reachable) : registry.ReadsBack :=
  ⟨fun _ hvalid => hreachable.proper.scopeOfText_listing_iff hvalid,
    fun names => congrArg registry.scopeOfNames (namesOf_listing names),
    fun _ hname => hreachable.proper.scopeOfText_name_iff hname⟩

/-- A name with a blank inside, and its two pieces as names of their own. -/
def brokenRegistry : Registry := empty.offer ["a b", "a", "b"]

theorem brokenRegistry_reachable : brokenRegistry.Reachable := ⟨[["a b", "a", "b"]], rfl⟩

/-- The areas of the pieces are read back together; the name of both leads to them and not to its own area. -/
theorem reads_back_iff_unbroken_pieces :
    brokenRegistry.Reachable ∧ brokenRegistry.ReadsBack ∧
      brokenRegistry.scopeOfText (listing (brokenRegistry.namesFor (.areas 6))) = .ok (.areas 6) ∧
      brokenRegistry.scope "a b" = .ok (.areas 1) ∧ brokenRegistry.scopeOfText "a b" = .ok (.areas 6) :=
  ⟨brokenRegistry_reachable, reads_back_iff_unbroken brokenRegistry_reachable, by decide, by decide, by decide⟩

/-- Not every accepted scope is read back from the text of its names. -/
theorem not_always_read_back :
    ¬ ∀ registry : Registry, registry.Reachable → ∀ scope, registry.validate scope = .ok () →
      registry.scopeOfText (listing (registry.namesFor scope)) = .ok scope := by
  intro halways
  have hread := halways brokenRegistry brokenRegistry_reachable (.areas 1) (by decide)
  revert hread
  decide

end Retrace.Registry
