import PaneEngine.Options
import PaneEngine.Proofs.Json.Path

/-!
# Entries of options

Options are decoded entry by entry: a button, a default class, the overrides of a
tag, one property in them, the classes of the pane, an art pack, a modal.  An
entry stands at a path of keys in the document, and what becomes of it depends on
the value there alone.  So an exchange of the value at the place of an entry is
not seen by any entry that does not lie within that place, whatever the values
are.

## Main definitions

* `Options.Place` — the places of entries, with their paths;
* `Options.Entry`, `Options.entryAt?` — decoded entries and the one at a place;
* `Options.Place.decode?` — what a value is decoded to on its own.

## Main results

* `entryAt?_ofJson` — an entry is what the value at its place is decoded to;
* `ext_entryAt?` — options are their entries;
* `entries_isolated` — a malformed entry costs only itself.
-/

namespace PaneEngine.Options

/-! ## Places and entries -/

/-- The place of an entry. -/
inductive Place where
  | button (address : String)
  | classes (tag : String)
  /-- The section of a tag, which holds its properties. -/
  | overrides (tag : String)
  | property (tag name : String)
  | parent
  | artpack
  | modal
deriving DecidableEq

/-- The keys that lead to a place. -/
def Place.path : Place → List String
  | button address => ["buttons", address]
  | classes tag => ["classNames", "all", tag]
  | overrides tag => ["classNamesPayload", tag]
  | property tag name => ["classNamesPayload", tag, "override", name]
  | parent => ["classNamesParent"]
  | artpack => ["artpack"]
  | modal => ["modal"]

/-- A decoded entry. -/
inductive Entry where
  | button (b : Button)
  | classes (c : Style.ClassSpec)
  /-- A tag has overrides; its properties are entries of their own. -/
  | overrides
  | property (tuples : List (Option Style.Tuple))
  | document (j : Json)

/-- The entry at a place. -/
def entryAt? (o : Options) : Place → Option Entry
  | .button address => (o.buttons.get? address).map .button
  | .classes tag => (o.classes.get? tag).map .classes
  | .overrides tag => (o.overrides.get? tag).map fun _ => .overrides
  | .property tag name => ((o.overrides.get? tag).bind fun p => p.get? name).map .property
  | .parent => o.parent.map .classes
  | .artpack => o.artpack.map .document
  | .modal => o.modal.map .document

/-- A value of the shape that belongs at a place; of the section of a tag no more is asked than that
it is an object. -/
def Place.shape? : Place → Json → Option Entry
  | button _, j => (Button.ofJson? j).map .button
  | classes _, j | parent, j => (Style.ClassSpec.ofJson? j).map .classes
  | overrides _, j => j.dict?.map fun _ => .overrides
  | property _ _, j => (Style.Overrides.tuples? j).map .property
  | artpack, j | modal, j => some (.document j)

/-- What a value is decoded to on its own; `null` is no value. -/
def Place.decode? (p : Place) (j : Json) : Option Entry := if j.isNull then none else p.shape? j

/-! ## Entries are decoded on their own -/

section

variable {α : Type} (decode : Json → Option α)

theorem get?_dict? (j : Json) (key : String) :
    (j.dict?.bind fun d => d.get? key) = j.get? key := by
  cases j with
  | object members => exact Dict.get?_ofList members key
  | _ => rfl

theorem get?_entries (section? : Option Json) (key : String) :
    (entries decode section?).get? key =
      (section?.bind fun k => k.get? key).bind (single decode) := by
  unfold entries
  simp only [← get?_dict?, ← Option.bind_assoc]
  cases section?.bind Json.dict? with
  | none => rfl
  | some d => exact Dict.get?_filterMap _ d key

theorem map_bind_single (write : α → Entry) (o : Option Json) :
    (o.bind (single decode)).map write =
      o.bind fun i => if i.isNull then none else (decode i).map write := by
  rw [Option.map_bind]
  refine congrArg (Option.bind o) (funext fun i => ?_)
  show (single decode i).map write = _
  unfold single
  split <;> rfl

end

/-- The section of a tag is looked into only if it is one, and then property by property. -/
theorem bind_overridesOf? (j : Json) (name : String) :
    ((single overridesOf? j).bind fun o => o.get? name) =
      (j.at? ["override", name]).bind (single Style.Overrides.tuples?) := by
  rw [Json.at?_pair]
  cases j with
  | object members => exact get?_entries _ _ _
  | _ => rfl

/-- **An entry is what the value at its place is decoded to on its own.** -/
theorem entryAt?_ofJson (j : Json) (p : Place) :
    (ofJson j).entryAt? p = (j.at? p.path).bind p.decode? := by
  cases p with
  | button address =>
      show ((entries Button.ofJson? (j.get? "buttons")).get? address).map _ = _
      rw [get?_entries, map_bind_single, Place.path, Json.at?_pair]
      rfl
  | classes tag =>
      have hPath : j.at? ["classNames", "all", tag] =
          ((j.get? "classNames").bind (Json.get? "all")).bind fun k => k.get? tag := by
        rw [Json.at?, Option.bind_assoc]
        exact congrArg (Option.bind _) (funext fun k => k.at?_pair "all" tag)
      show ((entries Style.ClassSpec.ofJson? _).get? tag).map _ = _
      rw [get?_entries, map_bind_single, Place.path, hPath]
      rfl
  | overrides tag =>
      show ((entries overridesOf? (j.get? "classNamesPayload")).get? tag).map _ = _
      rw [get?_entries, map_bind_single, Place.path, Json.at?_pair]
      refine congrArg (Option.bind _) (funext fun i => ?_)
      cases i <;> rfl
  | property tag name =>
      have hPath : j.at? (Place.property tag name).path =
          ((j.get? "classNamesPayload").bind fun k => k.get? tag).bind fun i =>
            i.at? ["override", name] := by
        rw [← Json.at?_pair]
        exact j.at?_append ["classNamesPayload", tag] ["override", name]
      show (((entries overridesOf? (j.get? "classNamesPayload")).get? tag).bind _).map _ = _
      rw [get?_entries, Option.bind_assoc, hPath]
      simp only [bind_overridesOf?]
      rw [← Option.bind_assoc, map_bind_single]
      rfl
  | parent =>
      show ((j.get? "classNamesParent").bind (single Style.ClassSpec.ofJson?)).map _ = _
      rw [map_bind_single, Place.path, Json.at?_singleton]
      rfl
  | artpack =>
      show ((j.get? "artpack").bind (single some)).map _ = _
      rw [map_bind_single, Place.path, Json.at?_singleton]
      rfl
  | modal =>
      show ((j.get? "modal").bind (single some)).map _ = _
      rw [map_bind_single, Place.path, Json.at?_singleton]
      rfl

/-! ## Options are their entries -/

theorem ext_of_map {α : Type} {d d' : Dict α} (write : α → Entry)
    (hWrite : ∀ a b, write a = write b → a = b)
    (h : ∀ k, (d.get? k).map write = (d'.get? k).map write) : d = d' :=
  Dict.ext_get? fun k => Option.map_injective (fun a b => hWrite a b) (h k)

/-- A tag has the same properties in both if it has overrides in both or in neither. -/
theorem ext_overrides {d d' : Dict Style.Overrides}
    (hTags : ∀ tag, ((d.get? tag).map fun _ => Entry.overrides) =
      (d'.get? tag).map fun _ => Entry.overrides)
    (hProperties : ∀ tag name, ((d.get? tag).bind fun p => p.get? name).map Entry.property =
      ((d'.get? tag).bind fun p => p.get? name).map Entry.property) : d = d' := by
  refine Dict.ext_get? fun tag => ?_
  have hTag := hTags tag
  have hNames := hProperties tag
  cases hLeft : d.get? tag with
  | none =>
      cases hRight : d'.get? tag with
      | none => rfl
      | some o' =>
          rw [hLeft, hRight] at hTag
          cases hTag
  | some o =>
      cases hRight : d'.get? tag with
      | none =>
          rw [hLeft, hRight] at hTag
          cases hTag
      | some o' =>
          simp only [hLeft, hRight, Option.bind_some] at hNames
          exact congrArg some (ext_of_map Entry.property (fun _ _ => Entry.property.inj) hNames)

/-- Options with the same entries are the same. -/
theorem ext_entryAt? {o o' : Options} (h : ∀ p, o.entryAt? p = o'.entryAt? p) : o = o' := by
  have hOverrides : o.overrides = o'.overrides :=
    ext_overrides (fun tag => h (.overrides tag)) fun tag name => h (.property tag name)
  have hClasses : o.classes = o'.classes :=
    ext_of_map Entry.classes (fun _ _ => Entry.classes.inj) fun tag => h (.classes tag)
  have hParent : o.parent = o'.parent :=
    Option.map_injective (fun _ _ => Entry.classes.inj) (h .parent)
  have hButtons : o.buttons = o'.buttons :=
    ext_of_map Entry.button (fun _ _ => Entry.button.inj) fun address => h (.button address)
  have hArtpack : o.artpack = o'.artpack :=
    Option.map_injective (fun _ _ => Entry.document.inj) (h .artpack)
  have hModal : o.modal = o'.modal :=
    Option.map_injective (fun _ _ => Entry.document.inj) (h .modal)
  cases o
  cases o'
  simp only at hOverrides hClasses hParent hButtons hArtpack hModal
  rw [hOverrides, hClasses, hParent, hButtons, hArtpack, hModal]

/-! ## Exchanging a value -/

/-- The only place within another one is that of a property in the section of its tag. -/
theorem encloses {p q : Place} (hBefore : q.path <+: p.path) (hOutside : ¬ p.path <+: q.path) :
    ∃ tag name, q = .overrides tag ∧ p = .property tag name := by
  cases p <;> cases q <;> simp_all [Place.path, List.cons_prefix_cons]

/-- Of the section of a tag only its being an object counts, and that does not depend on what is
behind one of its keys. -/
theorem decode?_overrides_replaceAt (tag key : String) (path : List String) (j value : Json) :
    (Place.overrides tag).decode? (j.replaceAt (key :: path) value) =
      (Place.overrides tag).decode? j := by
  cases j <;> rfl

/-- An exchange is not seen outside its place: either the paths part, or the exchange is of a
property and the entry is the section around it. -/
theorem entryAt?_ofJson_replaceAt {p q : Place} (hOutside : ¬ p.path <+: q.path) (j value : Json) :
    (ofJson (j.replaceAt p.path value)).entryAt? q = (ofJson j).entryAt? q := by
  rw [entryAt?_ofJson, entryAt?_ofJson]
  by_cases hBefore : q.path <+: p.path
  · obtain ⟨tag, name, rfl, rfl⟩ := encloses hBefore hOutside
    have hSection : (j.replaceAt (Place.property tag name).path value).at?
          (Place.overrides tag).path =
        (j.at? (Place.overrides tag).path).map fun i => i.replaceAt ["override", name] value :=
      j.at?_replaceAt_append ["classNamesPayload", tag] ["override", name] value
    rw [hSection, Option.bind_map]
    exact congrArg (Option.bind _) (funext fun i => decode?_overrides_replaceAt tag _ _ i value)
  · rw [Json.at?_replaceAt_of_apart hOutside hBefore]

/-- **A malformed entry costs only itself.**  Whatever value is put at the place of an entry, each
entry outside that place stays as it was, and the entry there is what the new value is decoded to on
its own.  Every entry is there exactly if the value at its place can be decoded, and then it is the
decoded value; besides their entries options hold nothing.  Options are decoded of every document,
and one that is no object gives no options. -/
theorem entries_isolated (j value : Json) (p : Place) :
    (∀ q : Place, ¬ p.path <+: q.path →
      (ofJson (j.replaceAt p.path value)).entryAt? q = (ofJson j).entryAt? q) ∧
    (∀ k, j.at? p.path = some k →
      (ofJson (j.replaceAt p.path value)).entryAt? p = p.decode? value) ∧
    (∀ q : Place, (ofJson j).entryAt? q = (j.at? q.path).bind q.decode?) ∧
    (∀ o : Options, (∀ q, o.entryAt? q = (ofJson j).entryAt? q) → o = ofJson j) ∧
    ((∀ members, j ≠ .object members) → ofJson j = .empty) := by
  refine ⟨fun q hOutside => entryAt?_ofJson_replaceAt hOutside j value, ?_, entryAt?_ofJson j,
    fun o => ext_entryAt?, ?_⟩
  · intro k hThere
    have hReplaced := j.at?_replaceAt_append p.path [] value
    rw [List.append_nil, hThere] at hReplaced
    rw [entryAt?_ofJson, hReplaced]
    rfl
  · intro hShape
    cases j with
    | object members => exact absurd rfl (hShape members)
    | _ => rfl

/-- A payload with a broken property beside a sound one, a button and overrides of a second tag
that are no object. -/
def mixedPayload : Json := .object
  [("classNamesPayload", .object
    [("p", .object [("override", .object
      [("mt", .array [.array [.string "2"]]), ("pb", .array [.array [.string "4"]])])]),
      ("h2", .null)]),
    ("buttons", .object [("#go", .object [("callbackPayload", .string "(goto (home))")])])]

theorem entries_isolated_mixedPayload :
    (ofJson (mixedPayload.replaceAt ["classNamesPayload", "p", "override", "pb"]
        (.string "broken"))).entryAt? (.property "p" "mt") =
      some (.property [some [some (.text "2")]]) ∧
    (ofJson (mixedPayload.replaceAt ["classNamesPayload", "p", "override", "pb"]
        (.string "broken"))).entryAt? (.property "p" "pb") = none ∧
    mixedPayload.at? ["classNamesPayload", "p", "override", "pb"] =
      some (.array [.array [.string "4"]]) := by
  obtain ⟨hOutside, hInside, -⟩ :=
    entries_isolated mixedPayload (.string "broken") (.property "p" "pb")
  refine ⟨?_, ?_, rfl⟩
  · refine (hOutside (.property "p" "mt") (by decide)).trans ?_
    rfl
  · exact hInside (.array [.array [.string "4"]]) rfl

end PaneEngine.Options
