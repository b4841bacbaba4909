import Mathlib.Data.List.Perm.Basic
import Retrace.Config.File
import Retrace.Proofs.Printing

/-!
# Settings read back

Settings that are saved as JSON load as they were. The saved document is an object with five members, one for each
field; an object that has lost some of them, and has others that are no fields, in any order and in any layout, gives
the settings in which exactly the lost fields have their standard values (`Config.keeping`).
-/

namespace Retrace

/-! ### Ordered entries -/

namespace Ordered

variable {κ ν : Type} {before : κ → κ → Bool} {entries : List (κ × ν)}

theorem insert_last (horder : IsKeyOrder before) {key : κ} (hlast : ∀ entry ∈ entries, before entry.1 key = true)
    (value : ν) : insert before key value entries = entries ++ [(key, value)] := by
  induction entries with
  | nil => rfl
  | cons entry rest ih =>
    obtain ⟨hentry, hrest⟩ := List.forall_mem_cons.mp hlast
    have hnot : before key entry.1 = false := by
      cases hafter : before key entry.1 with
      | false => rfl
      | true =>
        have hsame := horder.trans _ _ _ hentry hafter
        rw [horder.irrefl] at hsame
        cases hsame
    rw [insert, if_neg (by simp [hnot]), if_pos hentry, ih hrest, List.cons_append]

end Ordered

namespace RouteTable

private theorem entries_foldl (table : RouteTable) {routes : List (String × String)}
    (hsorted : Ordered.IsSorted Text.before (table.entries ++ routes)) :
    (routes.foldl (fun table route => table.insert route.1 route.2) table).entries = table.entries ++ routes := by
  induction routes generalizing table with
  | nil => exact (List.append_nil _).symm
  | cons route rest ih =>
    have hlast : ∀ entry ∈ table.entries, Text.before entry.1 route.1 = true := by
      intro entry hmem
      exact (List.pairwise_append.mp hsorted).2.2 entry hmem route List.mem_cons_self
    have hentries : (table.insert route.1 route.2).entries = table.entries ++ [route] :=
      Ordered.insert_last Text.isKeyOrder_before hlast route.2
    have hwhole : table.entries ++ route :: rest = (table.insert route.1 route.2).entries ++ rest := by
      rw [hentries, List.append_assoc, List.singleton_append]
    rw [List.foldl_cons, hwhole]
    rw [hwhole] at hsorted
    exact ih _ hsorted

theorem ofList_entries (table : RouteTable) : ofList table.entries = table := by
  have hentries : (ofList table.entries).entries = table.entries := entries_foldl empty table.sorted
  cases hlist : ofList table.entries with
  | mk entries sorted =>
    rw [hlist] at hentries
    cases table
    cases hentries
    rfl

end RouteTable

/-! ### Fields -/

namespace Record

variable {ν α : Type} {name : String} {fields members : List (String × ν)} {node : ν}

theorem under_filter (test : String → Bool) (name : String) (members : List (String × ν)) :
    under name (members.filter fun member => test member.1) = if test name then under name members else [] := by
  unfold under
  rw [List.filter_filter]
  split_ifs with htest
  · refine congrArg _ (List.filter_congr fun member _ => ?_)
    cases hname : member.1 == name with
    | false => rfl
    | true => rw [eq_of_beq hname, htest, Bool.and_true]
  · rw [List.map_eq_nil_iff, List.filter_eq_nil_iff]
    intro member _ hboth
    obtain ⟨hname, hpasses⟩ := Bool.and_eq_true_iff.mp hboth
    rw [eq_of_beq hname] at hpasses
    exact htest hpasses

theorem under_of_perm {known : List String} {kept : String → Bool} (hknown : name ∈ known)
    (hmembers : (members.filter fun member => decide (member.1 ∈ known)).Perm
      (fields.filter fun field => kept field.1))
    (hnode : under name fields = [node]) : under name members = if kept name then [node] else [] := by
  have hunder : (under name (members.filter fun member => decide (member.1 ∈ known))).Perm
      (under name (fields.filter fun field => kept field.1)) := (hmembers.filter _).map _
  rw [under_filter (fun name => decide (name ∈ known)), under_filter kept, if_pos (decide_eq_true hknown), hnode] at hunder
  split_ifs at hunder ⊢
  · exact List.perm_singleton.mp hunder
  · exact List.perm_nil.mp hunder

theorem optional_of_under {kept : Bool} {read : ν → Option α} {value standard : α}
    (hunder : under name members = if kept then [node] else []) (hread : read node = some value) :
    optional name read standard members = some (if kept then value else standard) := by
  rw [optional, hunder]
  cases kept with
  | false => rfl
  | true => exact hread

end Record

namespace Config

variable {config : Config} {kept : String → Bool} {members : List (String × Json)}

private theorem texts?_array (names : List String) : jsonReader.texts? (.array (names.map .text)) = some names := by
  show (names.map Json.text).mapM Json.text? = some names
  induction names with
  | nil => rfl
  | cons name rest ih => simp [ih, Json.text?]

private theorem routes?_object (table : RouteTable) :
    jsonReader.routes? (.object (table.entries.map fun (scope, stack) => (scope, .text stack))) = some table := by
  have hentries : ∀ entries : List (String × String),
      (entries.map fun (scope, stack) => (scope, Json.text stack)).mapM jsonReader.route? = some entries := by
    intro entries
    induction entries with
    | nil => rfl
    | cons entry rest ih =>
      have hroute : jsonReader.route? (entry.1, .text entry.2) = some entry := rfl
      simp [ih, hroute]
  show ((table.entries.map fun (scope, stack) => (scope, Json.text stack)).mapM jsonReader.route?).map _ = _
  rw [hentries, Option.map_some, RouteTable.ofList_entries]

private theorem word?_integer (value : Int) : jsonReader.word? (.integer value) = Text.uint64OfInt? value := rfl

private theorem word?_ofWord (value : UInt64) : jsonReader.word? (.ofWord value) = some value := by
  rw [Json.ofWord, word?_integer, Text.uint64OfInt?_toNat]

private theorem text?_text (value : String) : jsonReader.text? (.text value) = some value := rfl

def keeping (kept : String → Bool) (config : Config) : Config where
  undoLimit := if kept "undo_limit" then config.undoLimit else standard.undoLimit
  scopes := if kept "scopes" then config.scopes else standard.scopes
  defaultStack := if kept "default_stack" then config.defaultStack else standard.defaultStack
  eventCapacity := if kept "event_capacity" then config.eventCapacity else standard.eventCapacity
  routes := if kept "routes" then config.routes else standard.routes

private theorem keeping_all (config : Config) : config.keeping (fun _ => true) = config := rfl

/-- The members of an object in which some fields of the settings are kept, in any order and among any members that are
no fields. -/
def Alters (config : Config) (kept : String → Bool) (members : List (String × Json)) : Prop :=
  (members.filter fun member => decide (member.1 ∈ fieldNames)).Perm
    (config.jsonFields.filter fun field => kept field.1)

instance : Decidable (config.Alters kept members) := inferInstanceAs (Decidable (List.Perm _ _))

theorem names_jsonFields (config : Config) : config.jsonFields.map Prod.fst = fieldNames := rfl

private theorem alters_jsonFields (config : Config) : config.Alters (fun _ => true) config.jsonFields := by
  rw [Alters, List.filter_eq_self.mpr fun _ _ => rfl, List.filter_eq_self.mpr fun field hfield => ?_]
  rw [decide_eq_true_eq, ← names_jsonFields config]
  exact List.mem_map_of_mem hfield

/-- **Lost fields have their standard values**, all others are read back. -/
theorem ofJson?_of_alters (halters : config.Alters kept members) :
    ofJson? (.object members) = some (config.keeping kept) := by
  have hfield : ∀ {α : Type} {name : String} {node : Json} {read : Json → Option α} {value : α} (default : α),
      name ∈ fieldNames → Record.under name config.jsonFields = [node] → read node = some value →
      Record.optional name read default members = some (if kept name then value else default) := by
    intro α name node read value default hname hnode hread
    exact Record.optional_of_under (Record.under_of_perm hname halters hnode) hread
  show ofFields jsonReader members = _
  unfold ofFields
  rw [hfield standard.undoLimit (by decide) rfl (word?_ofWord config.undoLimit),
    hfield standard.scopes (by decide) rfl (texts?_array config.scopes),
    hfield standard.defaultStack (by decide) rfl (text?_text config.defaultStack),
    hfield standard.eventCapacity (by decide) rfl (word?_ofWord config.eventCapacity),
    hfield standard.routes (by decide) rfl (routes?_object config.routes)]
  rfl

theorem printable_ofWord (value : UInt64) : (Json.ofWord value).Printable := by
  refine .ofInteger _ ?_
  rw [Json.fitsWord, Text.uint64OfInt?_toNat]
  exact Bool.or_true _

theorem printable_routes (entries : List (String × String)) :
    (Json.object (entries.map fun (scope, stack) => (scope, .text stack))).Printable := by
  refine .ofMembers _ fun entry hentry => ?_
  obtain ⟨⟨scope, stack⟩, -, rfl⟩ := List.mem_map.mp hentry
  exact .ofText stack

private theorem printable_toJson (config : Config) : config.toJson.Printable := by
  refine .ofMembers _ ?_
  simp only [jsonFields, List.forall_mem_cons]
  refine ⟨printable_ofWord _, .ofItems _ fun item hitem => ?_, .ofText _, printable_ofWord _, printable_routes _, nofun⟩
  obtain ⟨scope, -, rfl⟩ := List.mem_map.mp hitem
  exact .ofText scope

/-! ### Files -/

variable {path : String}

theorem textOfBytes_toUTF8 (text : String) : textOfBytes text.toUTF8 = .ok text := by
  have hvalid : text.toUTF8.IsValidUTF8 := text.isValidUTF8
  rw [textOfBytes, String.fromUTF8?, dif_pos hvalid]
  rfl

theorem ofPath?_json (hextension : String.ofList (Format.extension (Format.fileName path.toList)) = "json") :
    Format.ofPath? path = some .json := by
  rw [Format.ofPath?, hextension]
  rfl

theorem load_json (hextension : String.ofList (Format.extension (Format.fileName path.toList)) = "json")
    {value : Json} {text : String} (hdocument : value.Document isUnknown text) (hread : ofJson? value = some config) :
    load path (.ok text) = .ok config := by
  rw [load, ofPath?_json hextension]
  show parse .json text = .ok config
  rw [parse, Json.parsePassing?_of_document hdocument, Option.bind_some, hread]

/-- **Saved settings load as they were**, and so does any document that has lost some of their fields, and has other
members: exactly the lost fields have their standard values. -/
theorem saved_loads (config : Config)
    (hextension : String.ofList (Format.extension (Format.fileName path.toList)) = "json") :
    ∃ text, config.save path = .ok text ∧
      load path (textOfBytes text.toUTF8) = .ok config ∧
      (Json.object config.jsonFields).Document isUnknown text ∧
      ∀ kept members altered, config.Alters kept members → (Json.object members).Document isUnknown altered →
        load path (textOfBytes altered.toUTF8) = .ok (config.keeping kept) := by
  have hdocument : (Json.object config.jsonFields).Document isUnknown config.toJson.indented :=
    (printable_toJson config).document_indented isUnknown
  refine ⟨config.toJson.indented, ?_, ?_, hdocument, ?_⟩
  · rw [save, ofPath?_json hextension]
    rfl
  · rw [textOfBytes_toUTF8]
    have hread : ofJson? config.toJson = some (config.keeping fun _ => true) :=
      ofJson?_of_alters (alters_jsonFields config)
    rw [keeping_all] at hread
    exact load_json hextension hdocument hread
  · intro kept members altered halters haltered
    rw [textOfBytes_toUTF8]
    exact load_json hextension haltered (ofJson?_of_alters halters)

/-- Settings with the largest numbers, and with texts that need escapes. -/
def sample : Config where
  undoLimit := 0xFFFFFFFFFFFFFFFF
  scopes := ["plan", "a \"b\" \\ c", "\x01\n", "été 😀"]
  defaultStack := ""
  eventCapacity := 0
  routes := RouteTable.ofList [("plan", "books"), ("\t", "\x7f")]

/-- A document in which the limit and the routes are left, in the other order and with a note between them. -/
def sampleMembers : List (String × Json) :=
  [("routes", .object (sample.routes.entries.map fun (scope, stack) => (scope, .text stack))),
    ("note", .array [.null, .integer (-1)]), ("undo_limit", .ofWord sample.undoLimit)]

private theorem printable_sampleMembers : (Json.object sampleMembers).Printable := by
  refine .ofMembers _ ?_
  simp only [sampleMembers, List.forall_mem_cons]
  refine ⟨?_, .ofItems _ ?_, printable_ofWord _, nofun⟩
  · exact printable_routes _
  · simp only [List.forall_mem_cons]
    exact ⟨.ofNull, .ofInteger _ (by decide), nofun⟩

theorem saved_loads_sample :
    (∃ text, sample.save "rewind.json" = .ok text ∧ load "rewind.json" (textOfBytes text.toUTF8) = .ok sample) ∧
      load "rewind.json" (textOfBytes (Json.object sampleMembers).indented.toUTF8) =
        .ok { Config.standard with undoLimit := sample.undoLimit, routes := sample.routes } := by
  obtain ⟨text, hsave, hload, -, haltered⟩ := @saved_loads "rewind.json" sample (by decide)
  refine ⟨⟨text, hsave, hload⟩, ?_⟩
  have hkept : sample.keeping (fun name => name == "undo_limit" || name == "routes") =
      { Config.standard with undoLimit := sample.undoLimit, routes := sample.routes } := by decide
  rw [← hkept]
  exact haltered _ sampleMembers _ (by decide) (printable_sampleMembers.document_indented isUnknown)

end Config

end Retrace
