import Mathlib.Data.List.Chain
import PaneEngine.Hook.Widget
import PaneEngine.Proofs.Hook.Printing

/-!
# The texts of a widget

A section with a comma is read as a list, since some settings are lists.  Where
the setting is a single text, the items are joined again with commas.  On the
way each item was trimmed, so the text comes out as it was written except for
the blanks beside its commas.  A text without commas comes out as it was
written.

## Main definitions

* `Widget.texts` — the texts of a widget with their fields;
* `Name.slots` — where the texts of a widget stand;
* `Slot.authored` — a text as it was written;
* `IsTight` — no blank stands beside a comma.

## Main results

* `tighten_eq_self_iff` — what trimming the items of a text leaves alone;
* `texts_eq` — the texts of a widget are those of its sections with trimmed items;
* `texts_authored_iff` — which texts come out as they were written.
-/

namespace PaneEngine.Hook

open Text (IsTrimmed isBlank trimChars)

/-! ## Blanks beside commas -/

/-- No blank stands beside a comma. -/
def IsTight (cs : List Char) : Prop :=
  cs.IsChain fun a b => (isBlank a = true → b ≠ ',') ∧ (a = ',' → isBlank b = false)

instance (cs : List Char) : Decidable (IsTight cs) :=
  inferInstanceAs (Decidable (List.IsChain _ _))

/-- The text with its items trimmed. -/
def tighten (cs : List Char) : List Char := [','].intercalate ((cs.splitOn ',').map trimChars)

theorem isTight_of_no_comma {cs : List Char} (h : ',' ∉ cs) : IsTight cs := by
  refine List.Pairwise.isChain (List.pairwise_of_forall_mem_list ?_)
  intro a ha b hb
  refine ⟨fun _ hComma => h (hComma ▸ hb), fun hComma => absurd ha (hComma ▸ h)⟩

/-- The blanks beside a comma are at the ends of the two texts that it separates. -/
theorem isTight_append_cons {first rest : List Char} (hFirst : ',' ∉ first) :
    IsTight (first ++ ',' :: rest) ↔
      (∀ c ∈ first.getLast?, isBlank c = false) ∧ (∀ c ∈ rest.head?, isBlank c = false) ∧
        IsTight rest := by
  have hTight := isTight_of_no_comma hFirst
  unfold IsTight at hTight ⊢
  rw [List.isChain_append, List.isChain_cons]
  constructor
  · rintro ⟨-, ⟨hBehind, hRest⟩, hBefore⟩
    refine ⟨?_, fun c hc => (hBehind c hc).2 rfl, hRest⟩
    intro c hc
    simpa using (hBefore c hc ',' rfl).1
  · rintro ⟨hBefore, hBehind, hRest⟩
    refine ⟨hTight, ⟨fun c hc => ⟨?_, fun _ => hBehind c hc⟩, hRest⟩, ?_⟩
    · intro hBlank
      cases hBlank
    · rintro c hc d hd
      cases hd
      refine ⟨?_, ?_⟩
      · intro hBlank
        rw [hBefore c hc] at hBlank
        cases hBlank
      · rintro rfl
        exact absurd (List.mem_of_getLast? hc) hFirst

theorem isTrimmed_append_cons_iff {first rest : List Char} :
    IsTrimmed first ∧ IsTrimmed rest ↔
      IsTrimmed (first ++ ',' :: rest) ∧
        (∀ c ∈ first.getLast?, isBlank c = false) ∧ (∀ c ∈ rest.head?, isBlank c = false) := by
  constructor
  · rintro ⟨hFirst, hRest⟩
    exact ⟨Text.isTrimmed_append_cons (by decide) hFirst hRest, hFirst.2, hRest.1⟩
  · rintro ⟨hWhole, hLast, hHead⟩
    refine ⟨⟨?_, hLast⟩, hHead, ?_⟩
    · intro c hc
      exact hWhole.1 c (List.mem_head?_append_of_mem_head? hc)
    · intro c hc
      refine hWhole.2 c ?_
      rw [List.getLast?_append_cons, List.getLast?_cons, Option.mem_def.1 hc]
      rfl

/-- The items of a text are trimmed exactly if the text is, and no blank stands beside a comma. -/
theorem forall_isTrimmed_splitOn {cs : List Char} :
    (∀ item ∈ cs.splitOn ',', IsTrimmed item) ↔ IsTrimmed cs ∧ IsTight cs := by
  induction cs using split_induction (d := ',') with
  | whole cs hNone =>
      rw [List.splitOn_eq_singleton hNone, List.forall_mem_singleton]
      exact (and_iff_left (isTight_of_no_comma hNone)).symm
  | split first rest hFirst ih =>
      rw [List.splitOn_append_cons_self_of_not_mem hFirst, List.forall_mem_cons, ih,
        isTight_append_cons hFirst, ← and_assoc, isTrimmed_append_cons_iff]
      simp only [and_assoc]

theorem splitOn_tighten (cs : List Char) :
    (tighten cs).splitOn ',' = (cs.splitOn ',').map trimChars := by
  refine List.splitOn_intercalate ',' ?_ ?_
  · intro item hItem
    obtain ⟨part, hPart, rfl⟩ := List.mem_map.1 hItem
    exact fun hMem => (mem_splitOn hPart).1 (Text.mem_of_mem_trimChars hMem)
  · intro hNil
    exact List.splitOn_ne_nil ',' cs (List.map_eq_nil_iff.1 hNil)

/-- **Trimming the items of a trimmed text** leaves it alone exactly if no blank stands beside a
comma. -/
theorem tighten_eq_self_iff {cs : List Char} (h : IsTrimmed cs) : tighten cs = cs ↔ IsTight cs := by
  constructor
  · intro hSame
    have hItems := splitOn_tighten cs
    rw [hSame] at hItems
    refine (forall_isTrimmed_splitOn.1 ?_).2
    intro item hItem
    rw [hItems] at hItem
    obtain ⟨part, -, rfl⟩ := List.mem_map.1 hItem
    exact Text.isTrimmed_trimChars part
  · intro hTight
    have hItems := forall_isTrimmed_splitOn.2 ⟨h, hTight⟩
    have hSame : (cs.splitOn ',').map trimChars = cs.splitOn ',' :=
      (List.map_congr_left fun item hItem => Text.trimChars_of_isTrimmed (hItems item hItem)).trans
        (List.map_id _)
    rw [tighten, hSame, List.intercalate_splitOn]

/-! ## The texts of a widget -/

/-- A field of a widget that is a single text. -/
inductive Field where
  | slug
  | scale
  | prompt
  | embed
  | title
  | kind
  | variation
  | persona
deriving DecidableEq

/-- The texts of a widget with their fields. -/
def Widget.texts : Widget → List (Field × String)
  | .belief slug scale prompt => [(.slug, slug), (.scale, scale), (.prompt, prompt)]
  | .identifyAs slug _ prompt => [(.slug, slug), (.prompt, prompt)]
  | .toggle slug prompt => [(.slug, slug), (.prompt, prompt)]
  | .youtube embed title => [(.embed, embed), (.title, title)]
  | .bunny embed title _ => [(.embed, embed), (.title, title)]
  | .resource kind variation => [(.kind, kind), (.variation, variation)]
  | .signup persona prompt _ => [(.persona, persona), (.prompt, prompt)]

/-- Where the text of a field stands, and what stands for it if it is missing. -/
structure Slot where
  field : Field
  /-- The position of the section. -/
  index : Nat
  missing : String
deriving DecidableEq

/-- Where the texts of the widget of a hook stand. -/
def Name.slots : Name → List Slot
  | belief => [⟨.slug, 0, "BELIEF"⟩, ⟨.scale, 1, "yn"⟩, ⟨.prompt, 2, "Prompt"⟩]
  | identifyAs => [⟨.slug, 0, "BELIEF"⟩, ⟨.prompt, 2, "Prompt"⟩]
  | toggle => [⟨.slug, 0, "BELIEF"⟩, ⟨.prompt, 1, "Prompt"⟩]
  | youtube | bunny | bunnyContext => [⟨.embed, 0, "*"⟩, ⟨.title, 1, "Descriptive Title"⟩]
  | resource => [⟨.kind, 0, "?"⟩, ⟨.variation, 1, "?"⟩]
  | signup => [⟨.persona, 0, "Major Updates Only"⟩, ⟨.prompt, 1, "Keep in touch!"⟩]

/-- The text of a slot as it was written between the parentheses: that of its section, trimmed, if
there is any. -/
def Slot.authored (slot : Slot) (inner : List Char) : String :=
  match (inner.splitOn '|')[slot.index]? with
  | some raw =>
    if trimChars raw = [] then slot.missing else String.ofList (trimChars raw)
  | none => slot.missing

/-- What stands for missing texts is trimmed and has no comma. -/
theorem Name.isItem_missing (n : Name) : ∀ slot ∈ n.slots, IsItem slot.missing := by
  cases n <;> decide

theorem isTrimmed_authored {slot : Slot} (h : IsItem slot.missing) (inner : List Char) :
    IsTrimmed (slot.authored inner).toList := by
  unfold Slot.authored
  split
  · split
    · exact h.trimmed
    · rw [String.toList_ofList]
      exact Text.isTrimmed_trimChars _
  · exact h.trimmed

theorem tighten_of_no_comma {cs : List Char} (hTrimmed : IsTrimmed cs) (h : ',' ∉ cs) :
    tighten cs = cs :=
  (tighten_eq_self_iff hTrimmed).2 (isTight_of_no_comma h)

/-- **A setting** is the text of its section with the items trimmed. -/
theorem setting_eq {slot : Slot} (h : IsItem slot.missing) (inner : List Char) :
    setting (paramsOf inner) slot.index slot.missing =
      String.ofList (tighten (slot.authored inner).toList) := by
  -- What stands for a missing text is not joined; having no comma, it might as well be.
  have hMissing : String.ofList (tighten slot.missing.toList) = slot.missing := by
    rw [tighten_of_no_comma h.trimmed h.no_comma, String.ofList_toList]
  rw [setting, paramsOf, List.getElem?_map, Slot.authored]
  cases (inner.splitOn '|')[slot.index]? with
  | none => exact hMissing.symm
  | some raw =>
      simp only [Option.map_some, param]
      by_cases hComma : ',' ∈ trimChars raw
      · have hNil : trimChars raw ≠ [] := List.ne_nil_of_mem hComma
        rw [if_pos (List.contains_iff_mem.2 hComma), if_neg hNil, String.toList_ofList]
        apply String.toList_injective
        simp [tighten, String.toList_intercalate, Function.comp_def]
      · rw [if_neg fun hContains => hComma (List.contains_iff_mem.1 hContains)]
        by_cases hNil : trimChars raw = []
        · rw [if_pos hNil, hNil, hMissing]
          rfl
        · rw [if_neg hNil, String.toList_ofList,
            tighten_of_no_comma (Text.isTrimmed_trimChars raw) hComma]
          simp [hNil]

/-- **The texts of a widget** are those that were written with their items trimmed. -/
theorem texts_eq (n : Name) (inner : List Char) :
    (Hook.mk n (paramsOf inner)).widget.texts = n.slots.map fun slot =>
      (slot.field, String.ofList (tighten (slot.authored inner).toList)) := by
  have hSettings : n.slots.map (fun slot =>
        (slot.field, setting (paramsOf inner) slot.index slot.missing)) =
      n.slots.map fun slot =>
        (slot.field, String.ofList (tighten (slot.authored inner).toList)) :=
    List.map_congr_left fun slot hSlot => by rw [setting_eq (n.isItem_missing slot hSlot)]
  rw [← hSettings]
  cases n <;> rfl

/-- What a text of a widget shows of the text that was written for it: the items, trimmed, and
exactly that text if and only if no blank stands beside a comma. -/
structure Shows (inner : List Char) (slot : Slot) (text : Field × String) : Prop where
  field : text.1 = slot.field
  items : text.2.toList.splitOn ',' = ((slot.authored inner).toList.splitOn ',').map trimChars
  unchanged : text.2 = slot.authored inner ↔ IsTight (slot.authored inner).toList

theorem shows_tighten {slot : Slot} (h : IsItem slot.missing) (inner : List Char) :
    Shows inner slot (slot.field, String.ofList (tighten (slot.authored inner).toList)) where
  field := rfl
  items := by rw [String.toList_ofList, splitOn_tighten]
  unchanged := by
    rw [← tighten_eq_self_iff (isTrimmed_authored h inner), ← String.toList_inj,
      String.toList_ofList]

/-- **Which texts of a widget come out as they were written.**  The texts of the widget of a
directive stand in the sections of the directive that opens first, each at its position.  A text
has the items of its section, trimmed, in their order, and it is the trimmed section itself, or
what stands for it if the section is missing or blank, if and only if no blank stands beside a
comma there; so a text without commas always is. -/
theorem texts_authored_iff {cs : List Char} {h : Hook} (hScan : scan cs = .ok (some h)) :
    ∃ before inner after, cs = before ++ opened h.name (inner ++ ')' :: after) ∧
      Quiet before (opened h.name (inner ++ ')' :: after)) ∧ ')' ∉ inner ∧
      List.Forall₂ (Shows inner) h.name.slots h.widget.texts := by
  obtain ⟨before, inner, after, hSplit, hQuiet, hInner, hParams⟩ := exists_of_scan_eq hScan
  refine ⟨before, inner, after, hSplit, hQuiet, hInner, ?_⟩
  obtain ⟨n, params⟩ := h
  obtain rfl : params = paramsOf inner := hParams
  rw [texts_eq, List.forall₂_map_right_iff, List.forall₂_same]
  exact fun slot hSlot => shows_tighten (n.isItem_missing slot hSlot) inner

/-- A prompt with a blank behind its comma. -/
def spacedPrompt : String := "toggle(A|Ready, set)"

/-- The blank is lost, as it stands beside a comma. -/
theorem texts_authored_iff_spacedPrompt :
    let h : Hook := ⟨.toggle, [.scalar "A", .list ["Ready", "set"]]⟩
    scan spacedPrompt.toList = .ok (some h) ∧ h.widget = .toggle "A" "Ready,set" ∧
      ¬ IsTight "Ready, set".toList ∧
      ∃ before inner after, spacedPrompt.toList = before ++ opened h.name (inner ++ ')' :: after) ∧
        Quiet before (opened h.name (inner ++ ')' :: after)) ∧ ')' ∉ inner ∧
        List.Forall₂ (Shows inner) h.name.slots h.widget.texts := by
  intro h
  have hScan : scan spacedPrompt.toList = .ok (some h) := rfl
  exact ⟨hScan, rfl, by decide, texts_authored_iff hScan⟩

end PaneEngine.Hook
