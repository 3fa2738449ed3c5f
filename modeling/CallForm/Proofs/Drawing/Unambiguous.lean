/-
  CallForm.Proofs.Drawing.Unambiguous — drawings tell the tree.

  Drawings are cancelled from the left. Whatever is written in a title, it ends with its line,
  and siblings end where a line does not go on behind their margin (`Ends`): a connector is no
  guide, so the lines below a node end at its next sibling. By induction no text begins with the
  lines of two rows of drawings in two ways (`texts_cancel`). If titles tell kinds and labels
  (`Outline.Legible`), and these with the children tell a node (`Outline.Faithful`), drawings
  tell the nodes (`Outline.DrawnBy.eq_of_texts_eq`), which holds of both sorts of programs
  (`drawn_alike_iff`).
-/

import CallForm.Proofs.Drawing.Outline
import CallForm.Proofs.Source.Shape
import CallForm.Proofs.Text.Quoted

namespace CallForm

/-! ## Lines -/

namespace Drawing

/-- Every title stands on one line. -/
inductive OneLine : Drawing → Prop where
  | node {title : String} {children : List Drawing} (root : '\n' ∉ title.toList)
      (below : ∀ d ∈ children, OneLine d) : OneLine (.node title children)

/-- The text does not go on behind the margin. -/
def Ends (margin : String) (r : List Char) : Prop :=
  ∀ c rest, r ≠ margin.toList ++ c :: rest

theorem texts_cons (margin title : String) (children ds : List Drawing) (r : List Char) :
    (texts margin (.node title children :: ds)).toList ++ r =
      margin.toList ++ ((connector ds.isEmpty).toList ++ ' ' :: (title.toList ++
        '\n' :: ((texts (margin ++ guide ds.isEmpty) children).toList ++
          ((texts margin ds).toList ++ r)))) := by
  simp [texts, text]

theorem connector_cancels {last last' : Bool} {r s : List Char}
    (h : (connector last).toList ++ r = (connector last').toList ++ s) : last = last' ∧ r = s := by
  cases last <;> cases last' <;> simp_all [connector]

variable {margin : String} {ds es : List Drawing} {r s : List Char}

theorem Ends.ne_texts (hr : Ends margin r) (hds : ds ≠ []) :
    r ≠ (texts margin ds).toList ++ s := by
  obtain ⟨⟨title, children⟩, ds, rfl⟩ := List.exists_cons_of_ne_nil hds
  rw [texts_cons]
  cases ds.isEmpty
  · exact hr '├' _
  · exact hr '└' _

/-- The lines below a node end where its later siblings stand, or where these end. -/
theorem Ends.below (hr : Ends margin r) (last : Bool) (ds : List Drawing) :
    Ends (margin ++ guide last) ((texts margin ds).toList ++ r) := by
  intro c rest heq
  rw [String.toList_append, List.append_assoc] at heq
  cases ds with
  | nil =>
    -- What goes on behind the guide goes on behind the margin alone.
    cases last
    · exact hr '│' _ heq
    · exact hr ' ' _ heq
  | cons d ds =>
    obtain ⟨title, children⟩ := d
    rw [texts_cons] at heq
    have hlead := List.append_cancel_left heq
    cases last <;> cases hds : ds.isEmpty <;> simp [hds, connector, guide] at hlead

/-- Drawings in a row are told from any text that their lines begin, up to where they end. -/
theorem texts_cancel (hds : ∀ d ∈ ds, d.OneLine) (hes : ∀ e ∈ es, e.OneLine)
    (hr : Ends margin r) (hs : Ends margin s)
    (h : (texts margin ds).toList ++ r = (texts margin es).toList ++ s) : ds = es ∧ r = s := by
  -- The margin grows on the way down, and what stands behind the lines below a node is told from
  -- them only by the margin, so both are general.
  induction ds using forest_induction generalizing margin es r s with
  | nil =>
    cases es with
    | nil => exact ⟨rfl, h⟩
    | cons e es => exact absurd h (hr.ne_texts (List.cons_ne_nil e es))
  | cons title children ds ihchildren ihds =>
    cases es with
    | nil => exact absurd h.symm (hs.ne_texts (List.cons_ne_nil _ ds))
    | cons e es =>
      obtain ⟨⟨htitle, hchildren⟩, hothers⟩ := List.forall_mem_cons.mp hds
      obtain ⟨⟨htitle', hchildren'⟩, hothers'⟩ := List.forall_mem_cons.mp hes
      rw [texts_cons, texts_cons] at h
      obtain ⟨hlast, hrest⟩ := connector_cancels (List.append_cancel_left h)
      obtain ⟨-, hrest⟩ := List.cons.inj hrest
      obtain ⟨hsame, hlines⟩ := Text.before_cancels htitle htitle' hrest
      rw [← hlast] at hlines
      obtain ⟨rfl, hlater⟩ :=
        ihchildren hchildren hchildren' (hr.below _ ds) (hs.below _ es) hlines
      obtain ⟨rfl, hrs⟩ := ihds hothers hothers' hr hs hlater
      rw [String.toList_inj.mp hsame]
      exact ⟨rfl, hrs⟩

theorem texts_injective (hds : ∀ d ∈ ds, d.OneLine) (hes : ∀ e ∈ es, e.OneLine)
    (h : texts "" ds = texts "" es) : ds = es := by
  have hend : Ends "" [] := nofun
  exact (texts_cancel hds hes hend hend (congrArg (fun t => t.toList ++ []) h)).1

end Drawing

/-! ## Outlines -/

namespace Outline

variable {α : Type} (o : Outline α)

/-- The property holds of all nodes under the roots. -/
inductive All (P : α → Prop) : List α → Prop where
  | nil : All P []
  | cons {x : α} {xs : List α} (root : P x) (children : All P (o.children x))
      (others : All P xs) : All P (x :: xs)

/-- The title of the node is on one line and tells its kind and its label. -/
structure Legible (x : α) : Prop where
  kind : ':' ∉ (o.kind x).toList ∧ '\n' ∉ (o.kind x).toList
  short : (o.label x).length ≤ 30
  label : '\n' ∉ (o.label x).toList

/-- Kind, label and children tell a node. -/
def Faithful : Prop :=
  ∀ x y, o.kind x = o.kind y → o.label x = o.label y → o.children x = o.children y → x = y

variable {o} {x y : α}

theorem Legible.title_eq (h : o.Legible x) :
    (Drawing.title (o.kind x) (o.label x)).toList =
      (o.kind x).toList ++ ':' :: ' ' :: (o.label x).toList := by
  have hcut : Drawing.cut (o.label x) = o.label x := if_neg (Nat.not_lt.mpr h.short)
  simp [Drawing.title, hcut]

theorem Legible.newline_not_mem_title (h : o.Legible x) :
    '\n' ∉ (Drawing.title (o.kind x) (o.label x)).toList := by
  simp [h.title_eq, h.kind.2, h.label]

theorem Legible.title_inj (hx : o.Legible x) (hy : o.Legible y)
    (h : Drawing.title (o.kind x) (o.label x) = Drawing.title (o.kind y) (o.label y)) :
    o.kind x = o.kind y ∧ o.label x = o.label y := by
  have hlist := congrArg String.toList h
  rw [hx.title_eq, hy.title_eq] at hlist
  obtain ⟨hkinds, hlabels⟩ := Text.before_cancels hx.kind.1 hy.kind.1 hlist
  exact ⟨String.toList_inj.mp hkinds, String.toList_inj.mp (List.cons.inj hlabels).2⟩

section

variable {draw : α → Drawing} (h : o.DrawnBy draw)

include h

/-- What holds of all members of a list of all nodes holds of all nodes. -/
theorem DrawnBy.all_of_forall_mem {P : α → Prop} {under : List α → List α}
    (hunder : ∀ x xs, under (x :: xs) = x :: (under (o.children x) ++ under xs)) {xs : List α}
    (hP : ∀ y ∈ under xs, P y) : o.All P xs := by
  induction xs using h.forest_induction with
  | nil => exact .nil
  | cons x xs ihchildren ihxs =>
    rw [hunder, List.forall_mem_cons, List.forall_mem_append] at hP
    exact .cons hP.1 (ihchildren hP.2.1) (ihxs hP.2.2)

theorem DrawnBy.oneLine {xs : List α} (hxs : o.All o.Legible xs) :
    ∀ d ∈ xs.map draw, d.OneLine := by
  induction hxs with
  | nil => exact nofun
  | cons hx _ _ ihchildren ihxs =>
    rw [List.map_cons, List.forall_mem_cons, h]
    exact ⟨.node hx.newline_not_mem_title ihchildren, ihxs⟩

theorem DrawnBy.eq_of_map_eq (ho : o.Faithful) {xs ys : List α} (hxs : o.All o.Legible xs)
    (hys : o.All o.Legible ys) (hdraw : xs.map draw = ys.map draw) : xs = ys := by
  induction hxs generalizing ys with
  | nil => exact (List.map_eq_nil_iff.mp hdraw.symm).symm
  | cons hx _ _ ihchildren ihxs =>
    cases hys with
    | nil => cases hdraw
    | cons hy hchildren hys =>
      obtain ⟨hroot, hothers⟩ := List.cons.inj hdraw
      rw [h, h] at hroot
      obtain ⟨htitle, hbelow⟩ := Drawing.node.inj hroot
      obtain ⟨hkind, hlabel⟩ := hx.title_inj hy htitle
      rw [ho _ _ hkind hlabel (ihchildren hchildren hbelow), ihxs hys hothers]

theorem DrawnBy.eq_of_texts_eq (ho : o.Faithful) {xs ys : List α} (hxs : o.All o.Legible xs)
    (hys : o.All o.Legible ys)
    (heq : Drawing.texts "" (xs.map draw) = Drawing.texts "" (ys.map draw)) : xs = ys :=
  h.eq_of_map_eq ho hxs hys (Drawing.texts_injective (h.oneLine hxs) (h.oneLine hys) heq)

end

end Outline

/-! ## Programs -/

theorem newline_not_mem_counted (n : Nat) {unit : String} (h : '\n' ∉ unit.toList) :
    '\n' ∉ (Nat.repr n ++ unit).toList := by
  have hdigits : '\n' ∉ Nat.toDigits 10 n := fun hmem =>
    absurd (Nat.isDigit_of_mem_toDigits (by decide) (by decide) hmem) (by decide)
  simp [Nat.repr, hdigits, h]

namespace Source.Node

/-- The label is not cut, and a name or number stands on one line. -/
structure Fits (m : Node) : Prop where
  short : m.label.length ≤ 30
  oneLine : m.kind ≠ .program ∧ m.kind ≠ .string → '\n' ∉ m.label.toList

instance : DecidablePred Fits := fun m =>
  decidable_of_iff (m.label.length ≤ 30 ∧
      (m.kind ≠ .program ∧ m.kind ≠ .string → '\n' ∉ m.label.toList))
    ⟨fun h => ⟨h.1, h.2⟩, fun h => ⟨h.short, h.oneLine⟩⟩

theorem Kind.name_injective : Function.Injective Kind.name := by
  intro k l h
  cases k <;> cases l <;> first | rfl | exact absurd h (by decide)

theorem Fits.legible {m : Node} (h : m.Fits) : outline.Legible m where
  kind := by
    have hnames : ∀ k : Kind, ':' ∉ k.name.toList ∧ '\n' ∉ k.name.toList := by
      intro k
      cases k <;> simp [Kind.name]
    exact hnames m.kind
  short := h.short
  label := by
    cases m with
    | program body => exact newline_not_mem_counted body.length (by decide)
    | string value => exact Text.newline_not_mem_quoted value
    | call | number => exact h.oneLine (by simp [kind])

theorem outline_faithful : outline.Faithful := by
  intro m n hkind hlabel hchildren
  have hkind : m.kind = n.kind := Kind.name_injective hkind
  cases m <;> cases n <;> simp_all [outline, kind, label, children, Text.quoted_injective.eq_iff]

theorem all_legible {ms : List Node} (h : ∀ m ∈ nodesAll ms, m.Fits) :
    outline.All outline.Legible ms := by
  refine drawnBy_drawing.all_of_forall_mem (fun m ms => ?_) fun m hm => (h m hm).legible
  rw [nodesAll, nodes_eq, List.cons_append]
  rfl

end Source.Node

namespace Target.Node

/-- The label is not cut, and a name or number stands on one line. -/
structure Fits (m : Node) : Prop where
  short : m.label.length ≤ 30
  oneLine : m.kind ≠ .program ∧ m.kind ≠ .string → '\n' ∉ m.label.toList

instance : DecidablePred Fits := fun m =>
  decidable_of_iff (m.label.length ≤ 30 ∧
      (m.kind ≠ .program ∧ m.kind ≠ .string → '\n' ∉ m.label.toList))
    ⟨fun h => ⟨h.1, h.2⟩, fun h => ⟨h.short, h.oneLine⟩⟩

theorem Kind.name_injective : Function.Injective Kind.name := by
  intro k l h
  cases k <;> cases l <;> first | rfl | exact absurd h (by decide)

theorem Fits.legible {m : Node} (h : m.Fits) : outline.Legible m where
  kind := by
    have hnames : ∀ k : Kind, ':' ∉ k.name.toList ∧ '\n' ∉ k.name.toList := by
      intro k
      cases k <;> simp [Kind.name]
    exact hnames m.kind
  short := h.short
  label := by
    cases m with
    | program body => exact newline_not_mem_counted body.length (by decide)
    | string value => exact Text.newline_not_mem_quoted value
    | statement | call | identifier | number => exact h.oneLine (by simp [kind])

theorem outline_faithful : outline.Faithful := by
  intro m n hkind hlabel hchildren
  have hkind : m.kind = n.kind := Kind.name_injective hkind
  cases m <;> cases n <;> simp_all [outline, kind, label, parts, Text.quoted_injective.eq_iff]

theorem all_legible {ms : List Node} (h : ∀ m ∈ nodesAll ms, m.Fits) :
    outline.All outline.Legible ms := by
  refine drawnBy_drawing.all_of_forall_mem (fun m ms => ?_) fun m hm => (h m hm).legible
  rw [nodesAll, nodes_eq, List.cons_append]
  rfl

end Target.Node

/-- Programs in which all labels are shown in full, and all names and numbers on one line, are
    drawn alike only if they are the same. -/
theorem drawn_alike_iff :
    (∀ p q : Source.Program, (∀ m ∈ p.below, m.Fits) → (∀ m ∈ q.below, m.Fits) →
      (p.drawn = q.drawn ↔ p = q)) ∧
    (∀ t u : Target.Program, (∀ m ∈ t.below, m.Fits) → (∀ m ∈ u.below, m.Fits) →
      (t.drawn = u.drawn ↔ t = u)) := by
  constructor
  · intro p q hp hq
    refine ⟨fun heq => ?_, congrArg _⟩
    rw [Source.Program.drawn, Source.Program.drawn, Source.Node.drawings_eq_map,
      Source.Node.drawings_eq_map] at heq
    have hbody := Source.Node.drawnBy_drawing.eq_of_texts_eq Source.Node.outline_faithful
      (Source.Node.all_legible hp) (Source.Node.all_legible hq) heq
    cases p
    cases q
    exact congrArg Source.Program.mk hbody
  · intro t u ht hu
    refine ⟨fun heq => ?_, congrArg _⟩
    rw [Target.Program.drawn, Target.Program.drawn, Target.Node.drawings_eq_map,
      Target.Node.drawings_eq_map] at heq
    have hbody := Target.Node.drawnBy_drawing.eq_of_texts_eq Target.Node.outline_faithful
      (Target.Node.all_legible ht) (Target.Node.all_legible hu) heq
    cases t
    cases u
    exact congrArg Target.Program.mk hbody

/-- Nodes of different kinds with one label, a call as last argument and in front of a sibling,
    and guides in a label are told apart. -/
theorem lookalikes_are_drawn_apart :
    let sources : List Source.Program :=
      [⟨[.call "1" []]⟩, ⟨[.number "1"]⟩, ⟨[.call "\"1\"" []]⟩, ⟨[.string "1"]⟩,
        ⟨[.call "f" [.call "g" [.number "1"]]]⟩, ⟨[.call "f" [.call "g" [], .number "1"]]⟩,
        ⟨[.call "f" [], .call "g" [.number "1"]]⟩, ⟨[.program [.call "f" []]]⟩]
    let targets : List Target.Program :=
      [⟨[.statement "f" []]⟩, ⟨[.call "f" []]⟩, ⟨[.identifier "f"]⟩,
        ⟨[.program [.statement "f" []]]⟩, ⟨[.call "f" [.identifier "g", .number "1"]]⟩,
        ⟨[.call "f" [.call "g" []], .number "1"]⟩, ⟨[.call "│ └─ Identifier: f" []]⟩]
    (∀ p ∈ sources, ∀ m ∈ p.below, m.Fits) ∧ (∀ t ∈ targets, ∀ m ∈ t.below, m.Fits) ∧
      sources.Pairwise (fun p q => p.drawn ≠ q.drawn) ∧
      targets.Pairwise (fun t u => t.drawn ≠ u.drawn) := by
  intro sources targets
  have hsources : ∀ p ∈ sources, ∀ m ∈ p.below, m.Fits := by decide
  have htargets : ∀ t ∈ targets, ∀ m ∈ t.below, m.Fits := by decide
  have hsourcesNe : sources.Pairwise (· ≠ ·) := by decide
  have htargetsNe : targets.Pairwise (· ≠ ·) := by decide
  refine ⟨hsources, htargets, hsourcesNe.imp_of_mem ?_, htargetsNe.imp_of_mem ?_⟩
  · intro p q hp hq
    exact (drawn_alike_iff.1 p q (hsources p hp) (hsources q hq)).not.mpr
  · intro t u ht hu
    exact (drawn_alike_iff.2 t u (htargets t ht) (htargets u hu)).not.mpr

end CallForm
