/-
  CallForm.Proofs.Json.Layout — the two forms of JSON text as one writer.

  A layout says which blanks stand before the items of a list, before the bracket that closes
  it, and behind a colon. `spelled` writes a value in a layout: without blanks it writes the
  compact text (`toList_compact`), with a line for each item the pretty text (`toList_pretty`).
-/

import CallForm.Json.Reader
import CallForm.Json.Writer

namespace CallForm.Json

/-- Induction over a value: each array and object after what it holds. -/
@[elab_as_elim]
theorem value_induction {P : Json → Prop} (null : P .null) (bool : ∀ b, P (.bool b))
    (number : ∀ n, P (.number n)) (string : ∀ s, P (.string s))
    (array : ∀ items, (∀ v ∈ items, P v) → P (.array items))
    (object : ∀ members, (∀ m ∈ members, P m.2) → P (.object members)) : ∀ v, P v
  | .null => null
  | .bool b => bool b
  | .number n => number n
  | .string s => string s
  | .array items =>
    array items fun v _ => value_induction null bool number string array object v
  | .object members =>
    object members fun m _ => value_induction null bool number string array object m.2
decreasing_by
  · have hitem := List.sizeOf_lt_of_mem ‹v ∈ items›
    simp only [Json.array.sizeOf_spec]
    omega
  · have hmember := List.sizeOf_lt_of_mem ‹m ∈ members›
    have hvalue : sizeOf m.2 < sizeOf m := by
      obtain ⟨name, v⟩ := m
      simp only [Prod.mk.sizeOf_spec]
      omega
    simp only [Json.object.sizeOf_spec]
    omega

/-! ## Blanks -/

/-- Nothing but blanks. -/
def Blank (cs : List Char) : Prop := ∀ c ∈ cs, isBlank c = true

theorem Blank.nil : Blank [] := nofun

theorem Blank.skip {bs : List Char} (hb : Blank bs) (cs : List Char) :
    skipBlanks (bs ++ cs) = skipBlanks cs := by
  induction bs with
  | nil => rfl
  | cons b bs ih =>
    obtain ⟨hb, hbs⟩ := List.forall_mem_cons.mp hb
    rw [List.cons_append, skipBlanks, List.dropWhile_cons_of_pos hb]
    exact ih hbs

theorem skipBlanks_cons {c : Char} (hc : isBlank c = false) (cs : List Char) :
    skipBlanks (c :: cs) = c :: cs := by
  simp [skipBlanks, hc]

/-! ## Layouts -/

structure Layout where
  /-- What stands before an item, or before a closing bracket, at a level of nesting. -/
  line : (level : Nat) → List Char
  /-- What stands behind a colon. -/
  gap : List Char
  line_blank : ∀ level, Blank (line level)
  gap_blank : Blank gap

namespace Layout

theorem skip_line (l : Layout) (level : Nat) {c : Char} (hc : isBlank c = false)
    (cs : List Char) : skipBlanks (l.line level ++ c :: cs) = c :: cs := by
  rw [(l.line_blank level).skip, skipBlanks_cons hc]

/-- How far a level is indented. -/
def indent (level : Nat) : List Char := List.replicate (2 * level) ' '

theorem indent_blank (level : Nat) : Blank (indent level) := by
  intro c hc
  rw [List.eq_of_mem_replicate hc]
  rfl

theorem indent_succ (level : Nat) : indent (level + 1) = indent level ++ [' ', ' '] := by
  rw [indent, indent, Nat.mul_add, ← List.replicate_append_replicate]
  rfl

theorem toList_indent_succ {level : Nat} {margin : String} (h : margin.toList = indent level) :
    (margin ++ "  ").toList = indent (level + 1) := by
  rw [String.toList_append, h, indent_succ]
  rfl

def compact : Layout := ⟨fun _ => [], [], fun _ => Blank.nil, Blank.nil⟩

def pretty : Layout where
  line level := '\n' :: indent level
  gap := [' ']
  line_blank level := List.forall_mem_cons.mpr ⟨rfl, indent_blank level⟩
  gap_blank := by simp [Blank, isBlank]

@[simp] theorem compact_line (level : Nat) : compact.line level = [] := rfl

@[simp] theorem compact_gap : compact.gap = [] := rfl

@[simp] theorem pretty_line (level : Nat) : pretty.line level = '\n' :: indent level := rfl

@[simp] theorem pretty_gap : pretty.gap = [' '] := rfl

/-- The items of a list at a level, but for the blanks before the first, up to the bracket. -/
def listed (l : Layout) (level : Nat) : (items : List (List Char)) → List Char
  | [] => []
  | [item] => item ++ l.line level
  | item :: next :: items =>
    item ++ ',' :: (l.line (level + 1) ++ listed l level (next :: items))

/-- What stands between the brackets of a list at a level. -/
def between (l : Layout) (level : Nat) : (items : List (List Char)) → List Char
  | [] => []
  | item :: items => l.line (level + 1) ++ l.listed level (item :: items)

end Layout

mutual

/-- The text of a value at a level of nesting. -/
def spelled (l : Layout) (level : Nat) : Json → List Char
  | .null => "null".toList
  | .bool true => "true".toList
  | .bool false => "false".toList
  | .number n => n.text.toList
  | .string s => (quoted s).toList
  | .array items => '[' :: (l.between level (spelledItems l (level + 1) items) ++ [']'])
  | .object members =>
    '\x7b' :: (l.between level (spelledMembers l (level + 1) members) ++ ['\x7d'])

def spelledItems (l : Layout) (level : Nat) : List Json → List (List Char)
  | [] => []
  | item :: items => spelled l level item :: spelledItems l level items

def spelledMembers (l : Layout) (level : Nat) : List (String × Json) → List (List Char)
  | [] => []
  | (name, value) :: members =>
    ((quoted name).toList ++ ':' :: (l.gap ++ spelled l level value)) ::
      spelledMembers l level members

end

/-- A member as it stands in an object. -/
def spelledMember (l : Layout) (level : Nat) (m : String × Json) : List Char :=
  (quoted m.1).toList ++ ':' :: (l.gap ++ spelled l level m.2)

theorem spelledItems_eq_map (l : Layout) (level : Nat) (items : List Json) :
    spelledItems l level items = items.map (spelled l level) := by
  induction items with
  | nil => rfl
  | cons item items ih => rw [spelledItems, ih, List.map_cons]

theorem spelledMembers_eq_map (l : Layout) (level : Nat) (members : List (String × Json)) :
    spelledMembers l level members = members.map (spelledMember l level) := by
  induction members with
  | nil => rfl
  | cons member members ih => rw [spelledMembers, ih, List.map_cons, spelledMember]

/-! ## Compact text -/

theorem compacts_eq_map (items : List Json) : compacts items = items.map compact := by
  induction items with
  | nil => rfl
  | cons item items ih => rw [compacts, ih, List.map_cons]

theorem compactMembers_eq_map (members : List (String × Json)) :
    compactMembers members = members.map fun m => quoted m.1 ++ ":" ++ compact m.2 := by
  induction members with
  | nil => rfl
  | cons member members ih => rw [compactMembers, ih, List.map_cons]

theorem intercalate_comma (level : Nat) : ∀ items : List (List Char),
    [','].intercalate items = Layout.compact.between level items
  | [] => rfl
  | [item] => by simp [Layout.between, Layout.listed]
  | item :: next :: items => by
    rw [List.intercalate_cons_cons, intercalate_comma level (next :: items)]
    simp [Layout.between, Layout.listed]

theorem toList_compact (v : Json) (level : Nat) : v.compact.toList = spelled .compact level v := by
  induction v using value_induction generalizing level with
  | null => rfl
  | bool b => cases b <;> rfl
  | number n => rfl
  | string s => rfl
  | array items ih =>
    have hitems : (compacts items).map String.toList = spelledItems .compact (level + 1) items := by
      rw [compacts_eq_map, spelledItems_eq_map, List.map_map]
      exact List.map_congr_left fun v hv => ih v hv (level + 1)
    simp [compact, spelled, String.toList_intercalate, intercalate_comma level, hitems]
  | object members ih =>
    have hmembers : (compactMembers members).map String.toList =
        spelledMembers .compact (level + 1) members := by
      rw [compactMembers_eq_map, spelledMembers_eq_map, List.map_map]
      refine List.map_congr_left fun m hm => ?_
      simp [spelledMember, ih m hm (level + 1)]
    simp [compact, spelled, String.toList_intercalate, intercalate_comma level, hmembers]

/-! ## Pretty text -/

theorem prettyItems_eq_map (margin : String) (items : List Json) :
    prettyItems margin items = items.map fun v => margin ++ prettyFrom margin v := by
  induction items with
  | nil => rfl
  | cons item items ih => rw [prettyItems, ih, List.map_cons]

theorem prettyMembers_eq_map (margin : String) (members : List (String × Json)) :
    prettyMembers margin members =
      members.map fun m => margin ++ (quoted m.1 ++ ": " ++ prettyFrom margin m.2) := by
  induction members with
  | nil => rfl
  | cons member members ih =>
    rw [prettyMembers, ih, List.map_cons, String.append_assoc, String.append_assoc,
      String.append_assoc]

/-- Lines, each indented one deeper than the bracket that closes them. -/
theorem intercalate_lines (level : Nat) (item : List Char) (items : List (List Char)) :
    '\n' :: ([',', '\n'].intercalate ((item :: items).map (Layout.indent (level + 1) ++ ·)) ++
        '\n' :: Layout.indent level) =
      Layout.pretty.between level (item :: items) := by
  induction items generalizing item with
  | nil => simp [Layout.between, Layout.listed]
  | cons next items ih =>
    rw [List.map_cons, List.map_cons, List.intercalate_cons_cons, ← List.map_cons]
    simpa [Layout.between, Layout.listed] using ih next

theorem toList_lines {α : Type} {level : Nat} {margin : String}
    (hmargin : margin.toList = Layout.indent level) (f : α → String) (x : α) (xs : List α) :
    ("\n" ++ ",\n".intercalate ((x :: xs).map fun y => margin ++ "  " ++ f y) ++
      "\n" ++ margin).toList =
        Layout.pretty.between level ((x :: xs).map fun y => (f y).toList) := by
  have htexts : ((x :: xs).map fun y => margin ++ "  " ++ f y).map String.toList =
      ((x :: xs).map fun y => (f y).toList).map (Layout.indent (level + 1) ++ ·) := by
    rw [List.map_map, List.map_map]
    refine List.map_congr_left fun y _ => ?_
    rw [Function.comp_apply, Function.comp_apply, String.toList_append,
      Layout.toList_indent_succ hmargin]
  have hcomma : ",\n".toList = [',', '\n'] := rfl
  have hline : "\n".toList = ['\n'] := rfl
  rw [String.toList_append, String.toList_append, String.toList_append,
    String.toList_intercalate, htexts, hmargin, hcomma, hline, List.map_cons,
    ← intercalate_lines, List.append_assoc, List.append_assoc]
  rfl

theorem toList_prettyFrom (v : Json) {level : Nat} {margin : String}
    (hmargin : margin.toList = Layout.indent level) :
    (prettyFrom margin v).toList = spelled .pretty level v := by
  induction v using value_induction generalizing level margin with
  | null => rfl
  | bool b => cases b <;> rfl
  | number n => rfl
  | string s => rfl
  | array items ih =>
    cases items with
    | nil => simp [prettyFrom, spelled, spelledItems, Layout.between]
    | cons item items =>
      have hitems : (item :: items).map (fun v => (prettyFrom (margin ++ "  ") v).toList) =
          spelledItems .pretty (level + 1) (item :: items) := by
        rw [spelledItems_eq_map]
        exact List.map_congr_left fun v hv => ih v hv (Layout.toList_indent_succ hmargin)
      rw [prettyFrom, prettyItems_eq_map, spelled, ← hitems, ← toList_lines hmargin]
      simp
  | object members ih =>
    cases members with
    | nil => simp [prettyFrom, spelled, spelledMembers, Layout.between]
    | cons member members =>
      have hmembers : (member :: members).map (fun m =>
            (quoted m.1 ++ ": " ++ prettyFrom (margin ++ "  ") m.2).toList) =
          spelledMembers .pretty (level + 1) (member :: members) := by
        rw [spelledMembers_eq_map]
        refine List.map_congr_left fun m hm => ?_
        simp [spelledMember, ih m hm (Layout.toList_indent_succ hmargin)]
      rw [prettyFrom, prettyMembers_eq_map, spelled, ← hmembers, ← toList_lines hmargin]
      simp

theorem toList_pretty (v : Json) : v.pretty.toList = spelled .pretty 0 v :=
  toList_prettyFrom v rfl

theorem exists_layout {v : Json} {text : String} (h : text = v.compact ∨ text = v.pretty) :
    ∃ l, text.toList = spelled l 0 v := by
  obtain rfl | rfl := h
  · exact ⟨.compact, toList_compact v 0⟩
  · exact ⟨.pretty, toList_pretty v⟩

end CallForm.Json
