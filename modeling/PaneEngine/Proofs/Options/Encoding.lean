import PaneEngine.Options
import PaneEngine.Proofs.Style.Encoding

/-!
# Options that are written and read again

Options are decoded entry by entry, and an entry is dropped if it is `null` or
of the wrong shape.  What has been decoded once is written so that no entry is
dropped the second time: a cue has a time of 32 bits, and the parts that are
kept as they are, are not `null`.  So the options come back as they were, but for
class values that are hollow layers.

## Main definitions

* `Options.IsNormal` — the options that are ever decoded;
* `Options.classValues` — the class values of options.

## Main results

* `Button.survives` — payloads of buttons are read back;
* `isNormal_ofJson` — what is decoded is normal;
* `ofJson_toJson` — normal options are read back, their class values reread;
* `reread_iff_no_hollow` — options come back unchanged exactly if no class value is hollow.
-/

namespace PaneEngine

open Json (Survives)

/-! ## Cues and buttons -/

/-- The time of a cue is a number of 32 bits. -/
def VideoCue.IsTimed (c : VideoCue) : Prop := c.seconds < Nat.pow 2 32

theorem Json.natBelow?_nat {bits n : Nat} (h : n < Nat.pow 2 bits) :
    Json.natBelow? bits (.nat n) = some n := by
  have hRange : 0 ≤ (n : Int) ∧ (n : Int).toNat < Nat.pow 2 bits := ⟨Int.natCast_nonneg n, h⟩
  exact if_pos hRange

theorem Json.lt_of_natBelow? {bits n : Nat} {j : Json} (h : Json.natBelow? bits j = some n) :
    n < Nat.pow 2 bits := by
  unfold Json.natBelow? at h
  split at h
  · split at h
    · next hRange =>
      cases h
      exact hRange.2
    · cases h
  · cases h

namespace VideoCue

theorem survives {c : VideoCue} (h : c.IsTimed) : Survives ofJson? toJson c := by
  refine ⟨?_, rfl⟩
  let members : List (String × Option Json) :=
    [("t", some (.nat c.seconds)), ("videoId", c.videoId.map .string),
      ("slug", c.slug.map .string), ("isContext", some (.bool c.isContext))]
  have hNames : (members.map (·.1)).Nodup := by
    show ["t", "videoId", "slug", "isContext"].Nodup
    decide
  have hSeconds : Json.required (Json.present members) "t" (Json.natBelow? 32) = some c.seconds :=
    Json.required_present hNames rfl (Json.natBelow?_nat h)
  have hVideo : Json.optional (Json.present members) "videoId" Json.string? = some c.videoId :=
    Json.optional_present hNames rfl fun s _ => Json.survives_string s
  have hSlug : Json.optional (Json.present members) "slug" Json.string? = some c.slug :=
    Json.optional_present hNames rfl fun s _ => Json.survives_string s
  have hContext : Json.defaulted (Json.present members) "isContext" Json.bool? false =
      some c.isContext := Json.defaulted_present hNames rfl rfl
  show ofJson? (Json.objectOf members) = some c
  unfold ofJson?
  rw [show ["t", "videoId", "slug", "isContext"] = members.map (·.1) from rfl,
    Json.record?_objectOf hNames]
  simp only [Option.bind_eq_bind, Option.bind_some, hSeconds, hVideo, hSlug, hContext]
  rfl

theorem isTimed_of_ofJson? {j : Json} {c : VideoCue} (h : ofJson? j = some c) : c.IsTimed := by
  unfold ofJson? at h
  obtain ⟨fields, _, h⟩ := Option.bind_eq_some_iff.1 h
  obtain ⟨t, hSeconds, h⟩ := Option.bind_eq_some_iff.1 h
  obtain ⟨video, _, h⟩ := Option.bind_eq_some_iff.1 h
  obtain ⟨slug, _, h⟩ := Option.bind_eq_some_iff.1 h
  obtain ⟨context, _, h⟩ := Option.bind_eq_some_iff.1 h
  cases h
  obtain ⟨i, _, hNat⟩ := Option.bind_eq_some_iff.1 hSeconds
  exact Json.lt_of_natBelow? hNat

end VideoCue

namespace Button

/-- A cue that the payload holds has a time of 32 bits. -/
def IsTimed (b : Button) : Prop := ∀ c, b.cue = some c → c.IsTimed

theorem dictOf?_classesJson (d : Dict (List String)) :
    Json.dictOf? (Json.list? Json.string?) (classesJson d) = some d :=
  Json.dictOf?_ofDict_map fun _ _ => Json.list?_strings _

theorem survives {b : Button} (h : b.IsTimed) : Survives ofJson? toJson b := by
  refine ⟨?_, rfl⟩
  let members : List (String × Option Json) :=
    [("callbackPayload", some (.string b.callback)), ("className", b.className.map .string),
      ("buttonClasses", some (classesJson b.classes)),
      ("buttonHoverClasses", some (classesJson b.hoverClasses)),
      ("isExternalUrl", b.isExternal.map .bool), ("bunnyPayload", b.cue.map VideoCue.toJson)]
  have hNames : (members.map (·.1)).Nodup := by
    show ["callbackPayload", "className", "buttonClasses", "buttonHoverClasses", "isExternalUrl",
      "bunnyPayload"].Nodup
    decide
  have hCallback : Json.defaulted (Json.present members) "callbackPayload" Json.string? "" =
      some b.callback := Json.defaulted_present hNames rfl rfl
  have hName : Json.optional (Json.present members) "className" Json.string? =
      some b.className := Json.optional_present hNames rfl fun s _ => Json.survives_string s
  have hClasses : Json.defaulted (Json.present members) "buttonClasses"
      (Json.dictOf? (Json.list? Json.string?)) .empty = some b.classes :=
    Json.defaulted_present hNames rfl (dictOf?_classesJson b.classes)
  have hHover : Json.defaulted (Json.present members) "buttonHoverClasses"
      (Json.dictOf? (Json.list? Json.string?)) .empty = some b.hoverClasses :=
    Json.defaulted_present hNames rfl (dictOf?_classesJson b.hoverClasses)
  have hExternal : Json.optional (Json.present members) "isExternalUrl" Json.bool? =
      some b.isExternal := Json.optional_present hNames rfl fun x _ => Json.survives_bool x
  have hCue : Json.optional (Json.present members) "bunnyPayload" VideoCue.ofJson? =
      some b.cue := Json.optional_present hNames rfl fun c hc => VideoCue.survives (h c hc)
  show ofJson? (Json.objectOf members) = some b
  unfold ofJson?
  rw [show ["callbackPayload", "className", "buttonClasses", "buttonHoverClasses",
    "isExternalUrl", "bunnyPayload"] = members.map (·.1) from rfl, Json.record?_objectOf hNames]
  simp only [Option.bind_eq_bind, Option.bind_some, hCallback, hName, hClasses, hHover, hExternal,
    hCue]
  rfl

theorem isTimed_of_ofJson? {j : Json} {b : Button} (h : ofJson? j = some b) : b.IsTimed := by
  unfold ofJson? at h
  obtain ⟨fields, _, h⟩ := Option.bind_eq_some_iff.1 h
  obtain ⟨callback, _, h⟩ := Option.bind_eq_some_iff.1 h
  obtain ⟨name, _, h⟩ := Option.bind_eq_some_iff.1 h
  obtain ⟨classes, _, h⟩ := Option.bind_eq_some_iff.1 h
  obtain ⟨hover, _, h⟩ := Option.bind_eq_some_iff.1 h
  obtain ⟨external, _, h⟩ := Option.bind_eq_some_iff.1 h
  obtain ⟨cue, hCue, h⟩ := Option.bind_eq_some_iff.1 h
  cases h
  rintro c rfl
  obtain ⟨i, hDecode⟩ := Json.exists_of_optional hCue
  exact VideoCue.isTimed_of_ofJson? hDecode

end Button

/-! ## Options -/

namespace Options

variable {α : Type} {decode : Json → Option α} {encode : α → Json}

theorem single_eq_some_iff {j : Json} {a : α} :
    single decode j = some a ↔ j.isNull = false ∧ decode j = some a := by
  unfold single
  cases j.isNull <;> simp

theorem exists_of_mem_entries {j : Option Json} {e : String × α}
    (h : e ∈ (entries decode j).entries) : ∃ i, decode i = some e.2 := by
  unfold entries at h
  split at h
  · next d _ =>
    obtain ⟨m, _, hm⟩ := List.mem_filterMap.1 h
    obtain ⟨a, ha, rfl⟩ := Option.map_eq_some_iff.1 hm
    exact ⟨m.2, (single_eq_some_iff.1 ha).2⟩
  · cases h

/-- A section is read back entry by entry. -/
theorem entries_ofDict_map {d : Dict α} {f : α → α}
    (h : ∀ e ∈ d.entries, decode (encode e.2) = some (f e.2) ∧ (encode e.2).isNull = false) :
    entries decode (some (.ofDict (d.map fun _ a => encode a))) = d.map fun _ a => f a := by
  have hDict : (some (Json.ofDict (d.map fun _ a => encode a))).bind Json.dict? =
      some (d.map fun _ a => encode a) := congrArg some (Dict.ofList_entries _)
  unfold entries
  rw [hDict]
  refine Dict.ext_entries (Dict.entries_filterMap_map ?_)
  intro e hMem
  exact single_eq_some_iff.2 (h e hMem).symm

theorem entries_ofDict {d : Dict α} (h : ∀ e ∈ d.entries, Survives decode encode e.2) :
    entries decode (some (.ofDict (d.map fun _ a => encode a))) = d := by
  rw [entries_ofDict_map (f := id) fun e hMem => ⟨(h e hMem).decode_encode, (h e hMem).not_null⟩]
  exact Dict.ext_entries (List.map_id _)

/-- The default classes of the tags and the classes of the pane itself. -/
def classValues (o : Options) : List Style.ClassSpec :=
  o.classes.entries.map (·.2) ++ o.parent.toList

/-- Every entry can be written as something that is decoded again. -/
structure IsNormal (o : Options) : Prop where
  classes : ∀ c ∈ o.classValues, c.IsNormal
  buttons : ∀ e ∈ o.buttons.entries, e.2.IsTimed
  artpack : ∀ j, o.artpack = some j → j.isNull = false
  modal : ∀ j, o.modal = some j → j.isNull = false

theorem isNull_of_bind_single {j : Option Json} {i : Json} (h : j.bind (single some) = some i) :
    i.isNull = false := by
  obtain ⟨k, _, hSingle⟩ := Option.bind_eq_some_iff.1 h
  obtain ⟨hNull, hEq⟩ := single_eq_some_iff.1 hSingle
  cases hEq
  exact hNull

theorem isNormal_ofJson (j : Json) : (ofJson j).IsNormal := by
  refine ⟨?_, ?_, fun _ => isNull_of_bind_single, fun _ => isNull_of_bind_single⟩
  · intro c hMem
    rcases List.mem_append.1 hMem with hTag | hPane
    · obtain ⟨e, hEntry, rfl⟩ := List.mem_map.1 hTag
      obtain ⟨i, hDecode⟩ := exists_of_mem_entries hEntry
      exact Style.ClassSpec.isNormal_of_ofJson? hDecode
    · obtain ⟨i, _, hSingle⟩ := Option.bind_eq_some_iff.1 (Option.mem_toList.1 hPane)
      exact Style.ClassSpec.isNormal_of_ofJson? (single_eq_some_iff.1 hSingle).2
  · intro e hMem
    obtain ⟨i, hDecode⟩ := exists_of_mem_entries hMem
    exact Button.isTimed_of_ofJson? hDecode

/-! ### Reading again -/

/-- The options with their class values as they are read when they are written. -/
def reread (o : Options) : Options :=
  { o with
    classes := o.classes.map fun _ c => c.reread
    parent := o.parent.map Style.ClassSpec.reread }

theorem survives_overrides (t : Style.Overrides) : Survives overridesOf? overridesJson t :=
  ⟨congrArg some (entries_ofDict fun e _ => Style.Overrides.survives_tuples e.2), rfl⟩

/-- A part that is no section is read back if it is there. -/
theorem bind_single_map {o : Option α} {f : α → α}
    (h : ∀ a, o = some a → decode (encode a) = some (f a) ∧ (encode a).isNull = false) :
    (o.map encode).bind (single decode) = o.map f := by
  cases o with
  | none => rfl
  | some a => exact single_eq_some_iff.2 (h a rfl).symm

theorem bind_single {o : Option Json} (h : ∀ j, o = some j → j.isNull = false) :
    o.bind (single some) = o := by
  cases o with
  | none => rfl
  | some j => exact single_eq_some_iff.2 ⟨h j rfl, rfl⟩

/-- **Normal options are read back, their class values reread.** -/
theorem ofJson_toJson {o : Options} (h : o.IsNormal) : ofJson o.toJson = o.reread := by
  let members : List (String × Option Json) :=
    [("classNamesPayload", some (.ofDict (o.overrides.map fun _ t => overridesJson t))),
      ("classNames", some (.object [("all", .ofDict (o.classes.map fun _ c => c.toJson))])),
      ("classNamesParent", o.parent.map Style.ClassSpec.toJson),
      ("buttons", some (.ofDict (o.buttons.map fun _ b => b.toJson))),
      ("artpack", o.artpack), ("modal", o.modal)]
  have hNames : (members.map (·.1)).Nodup := by
    show ["classNamesPayload", "classNames", "classNamesParent", "buttons", "artpack",
      "modal"].Nodup
    decide
  have hMember : ∀ name, o.toJson.get? name = (members.lookup name).join :=
    Json.get?_objectOf hNames
  have hSpec : ∀ c ∈ o.classValues, Style.ClassSpec.ofJson? c.toJson = some c.reread ∧
      c.toJson.isNull = false := fun c hMem =>
    ⟨Style.ClassSpec.ofJson?_toJson (h.classes c hMem), Style.ClassSpec.toJson_not_null c⟩
  have hOverrides : entries overridesOf? (o.toJson.get? "classNamesPayload") = o.overrides := by
    rw [hMember]
    exact entries_ofDict fun e _ => survives_overrides e.2
  have hClasses : entries Style.ClassSpec.ofJson?
      ((o.toJson.get? "classNames").bind (Json.get? "all")) =
        o.classes.map fun _ c => c.reread := by
    rw [hMember]
    refine entries_ofDict_map fun e hMem => hSpec e.2 ?_
    exact List.mem_append.2 (.inl (List.mem_map.2 ⟨e, hMem, rfl⟩))
  have hParent : (o.toJson.get? "classNamesParent").bind (single Style.ClassSpec.ofJson?) =
      o.parent.map Style.ClassSpec.reread := by
    rw [hMember]
    refine bind_single_map fun c hc => hSpec c ?_
    exact List.mem_append.2 (.inr (Option.mem_toList.2 hc))
  have hButtons : entries Button.ofJson? (o.toJson.get? "buttons") = o.buttons := by
    rw [hMember]
    exact entries_ofDict fun e hMem => Button.survives (h.buttons e hMem)
  have hArtpack : (o.toJson.get? "artpack").bind (single some) = o.artpack := by
    rw [hMember]
    exact bind_single h.artpack
  have hModal : (o.toJson.get? "modal").bind (single some) = o.modal := by
    rw [hMember]
    exact bind_single h.modal
  unfold ofJson
  rw [hOverrides, hClasses, hParent, hButtons, hArtpack, hModal]
  rfl

theorem map_reread_eq_iff (d : Dict Style.ClassSpec) :
    (d.map fun _ c => c.reread) = d ↔ ∀ e ∈ d.entries, e.2.isHollow = false := by
  have hMap : (d.map fun _ c => c.reread) = d ↔
      d.entries.map (fun e => (e.1, e.2.reread)) = d.entries.map id := by
    rw [List.map_id]
    exact ⟨congrArg Dict.entries, fun h => Dict.ext_entries h⟩
  rw [hMap, List.map_inj_left]
  refine forall_congr' fun e => imp_congr_right fun _ => ?_
  rw [← Style.ClassSpec.reread_eq_iff]
  exact ⟨fun h => congrArg Prod.snd h, fun h => Prod.ext rfl h⟩

theorem reread_eq_iff (o : Options) :
    o.reread = o ↔ ∀ c ∈ o.classValues, c.isHollow = false := by
  have hParent : o.parent.map Style.ClassSpec.reread = o.parent ↔
      ∀ c, o.parent = some c → c.isHollow = false := by
    cases o.parent with
    | none => simp
    | some c => simp [Style.ClassSpec.reread_eq_iff]
  have hBoth : o.reread = o ↔
      (o.classes.map fun _ c => c.reread) = o.classes ∧
        o.parent.map Style.ClassSpec.reread = o.parent := by
    obtain ⟨overrides, classes, parent, buttons, artpack, modal⟩ := o
    simp [reread]
  rw [hBoth, map_reread_eq_iff, hParent]
  constructor
  · rintro ⟨hTags, hPane⟩ c hMem
    rcases List.mem_append.1 hMem with hTag | hOne
    · obtain ⟨e, hEntry, rfl⟩ := List.mem_map.1 hTag
      exact hTags e hEntry
    · exact hPane c (Option.mem_toList.1 hOne)
  · intro h
    refine ⟨fun e hMem => h e.2 ?_, fun c hc => h c ?_⟩
    · exact List.mem_append.2 (.inl (List.mem_map.2 ⟨e, hMem, rfl⟩))
    · exact List.mem_append.2 (.inr (Option.mem_toList.2 hc))

/-- **Decoded options come back unchanged exactly if no class value is hollow.**  For every
document: writing the options of the document and decoding them again keeps the overrides, the
buttons and the two parts that are not looked into; every class value of a tag and of the pane is
there again as `reread` says; that is the value itself unless the value consists of one to three
layers without styles; and such layers become a single layer in which as many breakpoints, the
smallest first, are there without properties. -/
theorem reread_iff_no_hollow (j : Json) :
    let o := ofJson j
    let again := ofJson o.toJson
    (again = o ↔ ∀ c ∈ o.classValues, c.isHollow = false) ∧
    again.overrides = o.overrides ∧ again.buttons = o.buttons ∧
    again.artpack = o.artpack ∧ again.modal = o.modal ∧
    (∀ tag, again.classes.get? tag = (o.classes.get? tag).map Style.ClassSpec.reread) ∧
    again.parent = o.parent.map Style.ClassSpec.reread ∧
    (∀ c : Style.ClassSpec, c.reread = c ↔ c.isHollow = false) ∧
    (∀ c : Style.ClassSpec, c.isHollow = true ↔
      ∃ n, 0 < n ∧ n ≤ 3 ∧ c = .layers (List.replicate n .empty)) ∧
    ∀ n, 0 < n → n ≤ 3 →
      (Style.ClassSpec.layers (List.replicate n .empty)).reread =
        .layers [⟨some .empty, if 1 < n then some .empty else none,
          if 2 < n then some .empty else none⟩] := by
  intro o again
  have hAgain : again = o.reread := ofJson_toJson (isNormal_ofJson j)
  rw [hAgain]
  refine ⟨reread_eq_iff o, rfl, rfl, rfl, rfl, fun tag => Dict.get?_map _ _ tag, rfl,
    Style.ClassSpec.reread_eq_iff, Style.ClassSpec.isHollow_iff, ?_⟩
  intro n hPos hShort
  have hHollow : (Style.ClassSpec.layers (List.replicate n .empty)).isHollow = true :=
    (Style.ClassSpec.isHollow_iff _).2 ⟨n, hPos, hShort, rfl⟩
  rw [Style.ClassSpec.reread, if_pos hHollow, List.length_replicate]
  simp [Style.Responsive.hollow, hPos]

/-- Options with a default class that sets no breakpoint. -/
def unstyledParagraphs : Json :=
  .object [("classNames", .object [("all", .object [("p", .object [])])])]

/-- The layer without breakpoints is written as a list of one object, which is read as a layer that
has a breakpoint. -/
theorem reread_iff_no_hollow_unstyledParagraphs :
    let o := ofJson unstyledParagraphs
    o.classes.get? "p" = some (.layers [.empty]) ∧
      (ofJson o.toJson).classes.get? "p" = some (.layers [⟨some .empty, none, none⟩]) ∧
      ofJson o.toJson ≠ o := by
  intro o
  have hClass : o.classes.get? "p" = some (.layers [.empty]) := by decide
  obtain ⟨hSame, _, _, _, _, hAgain, _⟩ := reread_iff_no_hollow unstyledParagraphs
  refine ⟨hClass, (hAgain "p").trans (by rw [hClass]; rfl), ?_⟩
  intro hEq
  have hNone := hSame.1 hEq (.layers [.empty]) (by decide)
  cases hNone

end Options

end PaneEngine
