import PaneEngine.Pane.Compile

/-!
# Fields of a compiled node

The node of an element takes its id, its parent and its styles from where the
element stands.  What the element holds decides the other fields, and the tag
only of a link, which may render as a button.

## Main definitions

* `frameNode` — the node of an element before what it holds is added.

## Main results

* `elementNode_cases` — what is added to the node of an element;
* `elementNode_frame` — id, parent and styles come from outside;
* `elementNode_tag`, `elementNode_tag_link` — the tag of a compiled element;
* `elementNode_copy`, `elementNode_button` — which elements have neither text nor button.
-/

namespace PaneEngine.Pane

/-- What the content of a node leaves as it is. -/
structure SameFrame (n m : Node) : Prop where
  id : n.id = m.id
  parentId : n.parentId = m.parentId
  css : n.css = m.css
  overrides : n.overrides = m.overrides

theorem withCode_frame (children : List Tree) (n : Node) : SameFrame (withCode children n) n := by
  unfold withCode
  split <;> exact ⟨rfl, rfl, rfl, rfl⟩

theorem withImage_frame (s : Settings) (src alt : Option String) (n : Node) :
    SameFrame (withImage s src alt n) n := by
  unfold withImage
  split <;> exact ⟨rfl, rfl, rfl, rfl⟩

theorem withLink_frame (s : Settings) (href : Option String) (n : Node) :
    SameFrame (withLink s href n) n := by
  unfold withLink
  split
  · exact ⟨rfl, rfl, rfl, rfl⟩
  · split <;> exact ⟨rfl, rfl, rfl, rfl⟩

/-- The node of an element before what it holds is added. -/
def frameNode (id p tag : String) (style : Style.Resolved) : Node :=
  { Node.bare id p tag with css := style.css, overrides := style.overrides }

/-- What an element holds is added by its tag, and nothing is added to other elements. -/
theorem elementNode_cases (s : Settings) (id p tag : String) (style : Style.Resolved) (t : Tree) :
    (tag = "code" ∧ elementNode s id p tag style t =
        withCode t.children (frameNode id p tag style)) ∨
      (tag = "img" ∧ elementNode s id p tag style t =
        withImage s (t.property? "src") (t.property? "alt") (frameNode id p tag style)) ∨
      (tag = "a" ∧ elementNode s id p tag style t =
        withLink s (t.property? "href") (frameNode id p tag style)) ∨
      (tag = "li" ∧ elementNode s id p tag style t =
        { frameNode id p tag style with hint := listItemHint t.children }) ∨
      elementNode s id p tag style t = frameNode id p tag style := by
  unfold elementNode
  by_cases hCode : tag = "code"
  · exact .inl ⟨hCode, if_pos hCode⟩
  · rw [if_neg hCode]
    by_cases hImg : tag = "img"
    · exact .inr (.inl ⟨hImg, if_pos hImg⟩)
    · rw [if_neg hImg]
      by_cases hLink : tag = "a"
      · exact .inr (.inr (.inl ⟨hLink, if_pos hLink⟩))
      · rw [if_neg hLink]
        by_cases hItem : tag = "li"
        · exact .inr (.inr (.inr (.inl ⟨hItem, if_pos hItem⟩)))
        · exact .inr (.inr (.inr (.inr (if_neg hItem))))

/-- Whatever an element holds, its node takes id, parent and styles from outside. -/
theorem elementNode_frame (s : Settings) (id p tag : String) (style : Style.Resolved) (t : Tree) :
    SameFrame (elementNode s id p tag style t)
      { Node.bare id p tag with css := style.css, overrides := style.overrides } := by
  rcases elementNode_cases s id p tag style t with
    ⟨_, h⟩ | ⟨_, h⟩ | ⟨_, h⟩ | ⟨_, h⟩ | h
  · exact h ▸ withCode_frame _ _
  · exact h ▸ withImage_frame s _ _ _
  · exact h ▸ withLink_frame s _ _
  · exact h ▸ ⟨rfl, rfl, rfl, rfl⟩
  · exact h ▸ ⟨rfl, rfl, rfl, rfl⟩

theorem rendering_tag (here : Action.Page) (b : Button) :
    (b.rendering here).tag = "a" ∨ (b.rendering here).tag = "button" := by
  unfold Button.rendering Button.renderingOf
  split
  · exact .inl rfl
  · exact .inr rfl

theorem withLink_tag (s : Settings) (href : Option String) (n : Node) :
    (withLink s href n).tag = n.tag ∨ (withLink s href n).tag = "a" ∨
      (withLink s href n).tag = "button" := by
  unfold withLink
  split
  · exact .inl rfl
  · split
    · exact .inl rfl
    · exact .inr (rendering_tag s.page _)

theorem withCode_tag (children : List Tree) (n : Node) : (withCode children n).tag = n.tag := by
  unfold withCode
  split <;> rfl

theorem withImage_tag (s : Settings) (src alt : Option String) (n : Node) :
    (withImage s src alt n).tag = n.tag := by
  unfold withImage
  split <;> rfl

/-- A node has the tag of its element, unless that is a link. -/
theorem elementNode_tag {tag : String} (hLink : tag ≠ "a") (s : Settings) (id p : String)
    (style : Style.Resolved) (t : Tree) : (elementNode s id p tag style t).tag = tag := by
  rcases elementNode_cases s id p tag style t with
    ⟨_, h⟩ | ⟨_, h⟩ | ⟨hTag, _⟩ | ⟨_, h⟩ | h
  · rw [h, withCode_tag]
    rfl
  · rw [h, withImage_tag]
    rfl
  · exact absurd hTag hLink
  · rw [h]
    rfl
  · rw [h]
    rfl

/-- A link renders as a link or as a button. -/
theorem elementNode_tag_link (s : Settings) (id p : String) (style : Style.Resolved) (t : Tree) :
    (elementNode s id p "a" style t).tag = "a" ∨
      (elementNode s id p "a" style t).tag = "button" := by
  have hTag := withLink_tag s (t.property? "href")
    { Node.bare id p "a" with css := style.css, overrides := style.overrides }
  rcases hTag with hTag | hTag
  · exact .inl hTag
  · exact hTag

/-! ## Fields that one tag alone fills -/

theorem withCode_button (children : List Tree) (n : Node) :
    (withCode children n).button = n.button := by
  unfold withCode
  split <;> rfl

theorem withImage_button (s : Settings) (src alt : Option String) (n : Node) :
    (withImage s src alt n).button = n.button := by
  unfold withImage
  split <;> rfl

theorem withImage_copy (s : Settings) (src alt : Option String) (n : Node) :
    (withImage s src alt n).copy = n.copy := by
  unfold withImage
  split <;> rfl

theorem withLink_copy (s : Settings) (href : Option String) (n : Node) :
    (withLink s href n).copy = n.copy := by
  unfold withLink
  split
  · rfl
  · split <;> rfl

/-- Of the elements, only code has a text of its own. -/
theorem elementNode_copy {tag : String} (hCode : tag ≠ "code") (s : Settings) (id p : String)
    (style : Style.Resolved) (t : Tree) : (elementNode s id p tag style t).copy = none := by
  rcases elementNode_cases s id p tag style t with
    ⟨hTag, _⟩ | ⟨_, h⟩ | ⟨_, h⟩ | ⟨_, h⟩ | h
  · exact absurd hTag hCode
  · rw [h, withImage_copy]
    rfl
  · rw [h, withLink_copy]
    rfl
  · rw [h]
    rfl
  · rw [h]
    rfl

/-- Only links have buttons. -/
theorem elementNode_button {tag : String} (hLink : tag ≠ "a") (s : Settings) (id p : String)
    (style : Style.Resolved) (t : Tree) : (elementNode s id p tag style t).button = none := by
  rcases elementNode_cases s id p tag style t with
    ⟨_, h⟩ | ⟨_, h⟩ | ⟨hTag, _⟩ | ⟨_, h⟩ | h
  · rw [h, withCode_button]
    rfl
  · rw [h, withImage_button]
    rfl
  · exact absurd hTag hLink
  · rw [h]
    rfl
  · rw [h]
    rfl

end PaneEngine.Pane
