/-
  CallForm.Proofs.Drawing.Outline — drawings, line by line.

  `Outline` looks at values as the nodes of ordered trees. A node is found by its path from the
  root, and all that its line shows is said of paths: which nodes are above it, and whether a
  later sibling follows it or one of them (`line`). The paths of all nodes, in order, are the
  listing (`Listing`), of which there is one (`Listing.eq`). A drawing that shows of each value
  what the outline says of it has the lines of the listing (`exists_listing`); so have the
  drawings of source and of target programs (`drawn_line_by_line`).
-/

import Mathlib.Data.List.Infix
import Mathlib.Data.List.Sort
import CallForm.Drawing
import CallForm.Proofs.Target.Shape

namespace CallForm

/-- Induction over drawings in a row: one after the drawings in it and those behind it. -/
@[elab_as_elim]
theorem Drawing.forest_induction {P : List Drawing → Prop} (nil : P [])
    (cons : ∀ title children ds, P children → P ds → P (.node title children :: ds)) : ∀ ds, P ds
  | [] => nil
  | .node title children :: ds =>
    cons title children ds (forest_induction nil cons children) (forest_induction nil cons ds)

/-! ## Paths -/

/-- The nodes above the one at a path, outermost first. -/
def ancestors (path : List Nat) : List (List Nat) := path.dropLast.inits.tail

/-- The path to the next sibling. -/
def nextSibling : List Nat → List Nat
  | [] => []
  | [i] => [i + 1]
  | i :: path => i :: nextSibling path

theorem ancestors_cons (i : Nat) {path : List Nat} (h : path ≠ []) :
    ancestors (i :: path) = [i] :: (ancestors path).map (i :: ·) := by
  have hinits : path.dropLast.inits = [] :: path.dropLast.inits.tail := by
    cases path.dropLast <;> rfl
  rw [ancestors, List.dropLast_cons_of_ne_nil h, List.inits_cons, List.tail_cons, hinits]
  rfl

theorem ne_nil_of_mem_ancestors {path above : List Nat} (h : above ∈ ancestors path) :
    above ≠ [] := by
  rw [ancestors] at h
  cases hpath : path.dropLast with
  | nil => simp [hpath] at h
  | cons i rest =>
    simp only [hpath, List.inits_cons, List.tail_cons, List.mem_map] at h
    obtain ⟨tail, -, rfl⟩ := h
    exact List.cons_ne_nil i tail

theorem ancestors_modifyHead (f : Nat → Nat) (path : List Nat) :
    ancestors (path.modifyHead f) = (ancestors path).map (·.modifyHead f) := by
  match path with
  | [] => rfl
  | [_] => rfl
  | i :: j :: path =>
    have hne : j :: path ≠ [] := List.cons_ne_nil j path
    rw [List.modifyHead_cons, ancestors_cons _ hne, ancestors_cons _ hne]
    simp [Function.comp_def]

theorem nextSibling_cons (i : Nat) {path : List Nat} (h : path ≠ []) :
    nextSibling (i :: path) = i :: nextSibling path := by
  cases path with
  | nil => exact absurd rfl h
  | cons j path => rfl

theorem nextSibling_ne_nil {path : List Nat} (h : path ≠ []) : nextSibling path ≠ [] := by
  match path with
  | [] => exact absurd rfl h
  | [_] => exact List.cons_ne_nil _ _
  | _ :: _ :: _ => exact List.cons_ne_nil _ _

theorem nextSibling_modifyHead (path : List Nat) :
    nextSibling (path.modifyHead (· + 1)) = (nextSibling path).modifyHead (· + 1) := by
  match path with
  | [] => rfl
  | [_] => rfl
  | _ :: _ :: _ => rfl

/-! ## Outlines -/

/-- Values seen as the nodes of ordered trees. -/
structure Outline (α : Type) where
  children : α → List α
  kind : α → String
  label : α → String

namespace Outline

variable {α : Type} (o : Outline α)

/-- The node at a path: the index of a root, then that of a child, and so on. -/
def node? : List α → List Nat → Option α
  | _, [] => none
  | roots, [i] => roots[i]?
  | roots, i :: path => roots[i]?.bind fun x => node? (o.children x) path

/-- The node at the path has a later sibling. -/
def hasLater (roots : List α) (path : List Nat) : Bool := (o.node? roots (nextSibling path)).isSome

/-- A label, cut after thirty characters if it is longer. -/
def shown (label : String) : String :=
  if label.length ≤ 30 then label else String.ofList (label.toList.take 30 ++ ['.', '.', '.'])

/-- The line of the node at a path. -/
def line (roots : List α) (path : List Nat) (x : α) : String :=
  String.join ((ancestors path).map fun above => if o.hasLater roots above then "│ " else "  ") ++
    (if o.hasLater roots path then "├─" else "└─") ++ " " ++ o.kind x ++ ": " ++
    shown (o.label x) ++ "\n"

/-- All nodes under the roots with their paths, by the order of the paths: a node before its
    children, and these before its later siblings. -/
structure Listing (roots : List α) (entries : List (List Nat × α)) : Prop where
  mem_iff : ∀ path x, (path, x) ∈ entries ↔ o.node? roots path = some x
  ordered : entries.Pairwise fun a b => a.1 < b.1

/-- The lines of the nodes. -/
def text (roots : List α) (entries : List (List Nat × α)) : String :=
  String.join (entries.map fun entry => o.line roots entry.1 entry.2)

variable {o} {roots : List α}

theorem Listing.eq {entries others : List (List Nat × α)} (h : o.Listing roots entries)
    (hothers : o.Listing roots others) : entries = others := by
  have : Std.Irrefl fun a b : List Nat × α => a.1 < b.1 := ⟨fun a => List.lt_irrefl a.1⟩
  have : Std.Antisymm fun a b : List Nat × α => a.1 < b.1 :=
    ⟨fun a b hab hba => absurd hab (List.lt_asymm hba)⟩
  refine h.ordered.eq_of_mem_iff hothers.ordered fun ⟨path, x⟩ => ?_
  rw [h.mem_iff, hothers.mem_iff]

theorem Listing.ne_nil {entries : List (List Nat × α)} (h : o.Listing roots entries)
    {entry : List Nat × α} (hentry : entry ∈ entries) : entry.1 ≠ [] := by
  obtain ⟨path, x⟩ := entry
  rintro rfl
  have hnode := (h.mem_iff [] x).mp hentry
  cases hnode

/-! ## A tree in front of others -/

section

variable (x : α) (xs : List α)

theorem node?_below {path : List Nat} (h : path ≠ []) :
    o.node? (x :: xs) (0 :: path) = o.node? (o.children x) path := by
  cases path with
  | nil => exact absurd rfl h
  | cons i path => rfl

theorem node?_behind {path : List Nat} :
    o.node? (x :: xs) (path.modifyHead (· + 1)) = o.node? xs path := by
  match path with
  | [] => rfl
  | [_] => rfl
  | _ :: _ :: _ => rfl

theorem hasLater_first : o.hasLater (x :: xs) [0] = !xs.isEmpty := by
  cases xs <;> rfl

theorem hasLater_below {path : List Nat} (h : path ≠ []) :
    o.hasLater (x :: xs) (0 :: path) = o.hasLater (o.children x) path := by
  rw [hasLater, nextSibling_cons 0 h, node?_below x xs (nextSibling_ne_nil h), hasLater]

theorem hasLater_behind (path : List Nat) :
    o.hasLater (x :: xs) (path.modifyHead (· + 1)) = o.hasLater xs path := by
  rw [hasLater, nextSibling_modifyHead, node?_behind, hasLater]

/-- The line of the first root. -/
theorem line_first (y : α) :
    o.line (x :: xs) [0] y =
      Drawing.connector xs.isEmpty ++ " " ++ o.kind y ++ ": " ++ shown (o.label y) ++ "\n" := by
  rw [line, hasLater_first]
  cases xs <;> rfl

/-- Under the first root a line is what it is under that root alone, behind one more guide. -/
theorem line_below {path : List Nat} (h : path ≠ []) (y : α) :
    o.line (x :: xs) (0 :: path) y =
      Drawing.guide xs.isEmpty ++ o.line (o.children x) path y := by
  have hguides : ∀ above ∈ ancestors path,
      o.hasLater (x :: xs) (0 :: above) = o.hasLater (o.children x) above := fun above habove =>
    hasLater_below x xs (ne_nil_of_mem_ancestors habove)
  have hfirst : (if o.hasLater (x :: xs) [0] then "│ " else "  ") = Drawing.guide xs.isEmpty := by
    rw [hasLater_first]
    cases xs <;> rfl
  rw [line, line, ancestors_cons 0 h, hasLater_below x xs h, List.map_cons, List.map_map,
    String.join_cons, hfirst]
  have hmap := List.map_congr_left fun above habove =>
    congrArg (fun later : Bool => if later then "│ " else "  ") (hguides above habove)
  simp only [Function.comp_def, String.append_assoc, hmap]

/-- The lines of the other roots are what they are without the first. -/
theorem line_behind (path : List Nat) (y : α) :
    o.line (x :: xs) (path.modifyHead (· + 1)) y = o.line xs path y := by
  simp only [line, ancestors_modifyHead, List.map_map, Function.comp_def, hasLater_behind]

/-- The nodes under the first root, with their paths from there. -/
def below (entry : List Nat × α) : List Nat × α := (0 :: entry.1, entry.2)

/-- The nodes under the other roots, with their paths from there. -/
def behind (entry : List Nat × α) : List Nat × α := (entry.1.modifyHead (· + 1), entry.2)

variable {x xs} {inner later : List (List Nat × α)}

theorem Listing.mem_cons_iff (hx : o.Listing (o.children x) inner) (hxs : o.Listing xs later)
    (path : List Nat) (y : α) :
    (path, y) ∈ ([0], x) :: (inner.map below ++ later.map behind) ↔
      o.node? (x :: xs) path = some y := by
  constructor
  · intro hmem
    simp only [List.mem_cons, List.mem_append, List.mem_map] at hmem
    rcases hmem with hfirst | ⟨⟨p, z⟩, hentry, heq⟩ | ⟨⟨p, z⟩, hentry, heq⟩
    · obtain ⟨rfl, rfl⟩ := Prod.mk.inj hfirst
      rfl
    · obtain ⟨rfl, rfl⟩ := Prod.mk.inj heq
      rw [node?_below x xs (hx.ne_nil hentry)]
      exact (hx.mem_iff p z).mp hentry
    · obtain ⟨rfl, rfl⟩ := Prod.mk.inj heq
      rw [node?_behind]
      exact (hxs.mem_iff p z).mp hentry
  · intro hnode
    match path with
    | [] => cases hnode
    | [0] =>
      obtain rfl : x = y := Option.some.inj hnode
      exact List.mem_cons_self
    | 0 :: i :: path =>
      rw [node?_below x xs (List.cons_ne_nil i path), ← hx.mem_iff] at hnode
      exact List.mem_cons_of_mem _ (List.mem_append_left _ (List.mem_map_of_mem hnode))
    | (i + 1) :: path =>
      have hpath : (i + 1) :: path = (i :: path).modifyHead (· + 1) := rfl
      rw [hpath, node?_behind, ← hxs.mem_iff] at hnode
      exact List.mem_cons_of_mem _ (List.mem_append_right _ (List.mem_map_of_mem hnode))

theorem Listing.ordered_cons (hx : o.Listing (o.children x) inner) (hxs : o.Listing xs later) :
    (([0], x) :: (inner.map below ++ later.map behind)).Pairwise fun a b => a.1 < b.1 := by
  have hbelow : ∀ a ∈ inner, [0] < (below a).1 := by
    intro a ha
    obtain ⟨i, path, hpath⟩ := List.exists_cons_of_ne_nil (hx.ne_nil ha)
    simp [below, hpath]
  have hbehind : ∀ b ∈ later, ∃ i path, (behind b).1 = (i + 1) :: path := by
    intro b hb
    obtain ⟨i, path, hpath⟩ := List.exists_cons_of_ne_nil (hxs.ne_nil hb)
    exact ⟨i, path, by simp [behind, hpath]⟩
  have hlater : ∀ path, ∀ b ∈ later, 0 :: path < (behind b).1 := by
    intro path b hb
    obtain ⟨i, rest, hrest⟩ := hbehind b hb
    simp [hrest, List.cons_lt_cons_iff]
  refine List.pairwise_cons.mpr ⟨?_, List.pairwise_append.mpr ⟨?_, ?_, ?_⟩⟩
  · refine List.forall_mem_append.mpr ⟨List.forall_mem_map.mpr hbelow, ?_⟩
    exact List.forall_mem_map.mpr (hlater [])
  · refine List.pairwise_map.mpr (hx.ordered.imp fun hlt => ?_)
    exact List.cons_lt_cons_iff.mpr (.inr ⟨rfl, hlt⟩)
  · refine List.pairwise_map.mpr (hxs.ordered.imp_of_mem fun {a b} ha hb hlt => ?_)
    obtain ⟨i, path, hpath⟩ := List.exists_cons_of_ne_nil (hxs.ne_nil ha)
    obtain ⟨j, rest, hrest⟩ := List.exists_cons_of_ne_nil (hxs.ne_nil hb)
    rw [hpath, hrest] at hlt
    simpa [behind, hpath, hrest, List.cons_lt_cons_iff] using hlt
  · intro a ha b hb
    obtain ⟨c, -, rfl⟩ := List.mem_map.mp ha
    obtain ⟨d, hd, rfl⟩ := List.mem_map.mp hb
    exact hlater c.1 d hd

end

/-! ## Drawings -/

/-- The drawing of a value shows what the outline says of it. -/
def DrawnBy (o : Outline α) (draw : α → Drawing) : Prop :=
  ∀ x, draw x = .node (Drawing.title (o.kind x) (o.label x)) ((o.children x).map draw)

variable {draw : α → Drawing}

/-- Induction over values in a row: one after its children and those behind it. -/
theorem DrawnBy.forest_induction (h : o.DrawnBy draw) {P : List α → Prop} (nil : P [])
    (cons : ∀ x xs, P (o.children x) → P xs → P (x :: xs)) (xs : List α) : P xs := by
  induction hds : xs.map draw using Drawing.forest_induction generalizing xs with
  | nil =>
    obtain rfl := List.map_eq_nil_iff.mp hds
    exact nil
  | cons title children ds ihchildren ihds =>
    obtain ⟨x, xs, rfl, hx, hxs⟩ := List.map_eq_cons_iff.mp hds
    rw [h x] at hx
    exact cons x xs (ihchildren _ (Drawing.node.inj hx).2) (ihds _ hxs)

theorem shown_eq_cut (label : String) : shown label = Drawing.cut label := by
  unfold shown Drawing.cut
  split
  · rw [if_neg (by omega)]
  · rw [if_pos (by omega), String.ofList_append]

theorem title_eq (kind label : String) :
    Drawing.title kind label = kind ++ ": " ++ shown label := by
  rw [shown_eq_cut, Drawing.title]

/-- The nodes under any roots have a listing, and their drawings have its lines. -/
theorem DrawnBy.exists_listing (h : o.DrawnBy draw) (xs : List α) :
    ∃ entries, o.Listing xs entries ∧ ∀ margin, Drawing.texts margin (xs.map draw) =
      String.join (entries.map fun entry => margin ++ o.line xs entry.1 entry.2) := by
  induction xs using h.forest_induction with
  | nil =>
    refine ⟨[], ⟨fun path x => ?_, .nil⟩, fun margin => rfl⟩
    match path with
    | [] => simp [node?]
    | [_] => simp [node?]
    | _ :: _ :: _ => simp [node?]
  | cons x xs ihchildren ihxs =>
    obtain ⟨inner, hinner, htextInner⟩ := ihchildren
    obtain ⟨later, hlater, htextLater⟩ := ihxs
    refine ⟨([0], x) :: (inner.map below ++ later.map behind),
      ⟨hinner.mem_cons_iff hlater, hinner.ordered_cons hlater⟩, fun margin => ?_⟩
    have hbelow : ∀ entry ∈ inner, margin ++ o.line (x :: xs) (0 :: entry.1) entry.2 =
        margin ++ Drawing.guide xs.isEmpty ++ o.line (o.children x) entry.1 entry.2 := by
      intro entry hentry
      rw [line_below x xs (hinner.ne_nil hentry), String.append_assoc]
    simp only [List.map_cons, List.map_append, List.map_map, Function.comp_def, below, behind,
      line_first, line_behind, String.join_cons, String.join_append, List.map_congr_left hbelow,
      ← htextInner, ← htextLater]
    rw [Drawing.texts, h x, Drawing.text, title_eq, List.isEmpty_map]
    simp only [String.append_assoc]

theorem DrawnBy.existsUnique_listing (h : o.DrawnBy draw) (xs : List α) :
    ∃! entries, o.Listing xs entries ∧ Drawing.texts "" (xs.map draw) = o.text xs entries := by
  obtain ⟨entries, hlisting, htext⟩ := h.exists_listing xs
  refine ⟨entries, ⟨hlisting, ?_⟩, fun others hothers => hothers.1.eq hlisting⟩
  simp only [htext, String.empty_append, text]

end Outline

/-! ## Programs -/

namespace Source

def Node.outline : Outline Node where
  children := Node.children
  kind m := m.kind.name
  label := Node.label

theorem Node.drawings_eq_map (qs : List Node) : Node.drawings qs = qs.map Node.drawing := by
  induction qs with
  | nil => rfl
  | cons q qs ih => rw [Node.drawings, ih, List.map_cons]

theorem Node.drawnBy_drawing : Node.outline.DrawnBy Node.drawing := by
  intro q
  cases q <;> simp [Node.drawing, Node.drawings_eq_map, Node.outline, Node.children, Node.label,
    Node.kind, Node.Kind.name]

end Source

namespace Target

/-- A statement is seen with its call under it, and a call with its callee in front of its
    arguments. -/
def Node.outline : Outline Node where
  children := Node.parts
  kind m := m.kind.name
  label := Node.label

theorem Node.drawings_eq_map (ms : List Node) : Node.drawings ms = ms.map Node.drawing := by
  induction ms with
  | nil => rfl
  | cons m ms ih => rw [Node.drawings, ih, List.map_cons]

theorem Node.drawnBy_drawing : Node.outline.DrawnBy Node.drawing := by
  intro m
  cases m <;> simp [Node.drawing, callDrawing, Node.drawings_eq_map, Node.outline, Node.parts,
    Node.label, Node.kind, Node.Kind.name]

end Target

/-- The drawing of a program is the lines of all nodes below its root, each by its path. -/
theorem drawn_line_by_line :
    (∀ p : Source.Program, ∃! entries, Source.Node.outline.Listing p.body entries ∧
      p.drawn = Source.Node.outline.text p.body entries) ∧
    (∀ t : Target.Program, ∃! entries, Target.Node.outline.Listing t.body entries ∧
      t.drawn = Target.Node.outline.text t.body entries) := by
  constructor
  · intro p
    rw [Source.Program.drawn, Source.Node.drawings_eq_map]
    exact Source.Node.drawnBy_drawing.existsUnique_listing p.body
  · intro t
    rw [Target.Program.drawn, Target.Node.drawings_eq_map]
    exact Target.Node.drawnBy_drawing.existsUnique_listing t.body

end CallForm
