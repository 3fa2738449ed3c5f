/-
  CallForm.Proofs.Target.Lines — code has one line for each element of the program.

  Line breaks can come into code from three sides. Separators and names are given without one.
  A string may hold any text, but what is written for it has no line break, as control
  characters are escaped (`newline_not_mem_quoted`). And only a program joins its elements by
  line breaks: below the elements of a converted program there is none
  (`kind_ne_program_of_passable`).

  `fragments` is the code cut at the quoted strings in it, from left to right
  (`spelled_fragments`). They stand for the strings of the tree in order
  (`values_fragments`), and a reader of JSON that starts at the opening quote of one takes
  its string, and nothing behind the closing quote (`readValue_quoted`).
-/

import CallForm.Proofs.Conversion.Inverse
import CallForm.Proofs.Json.Strings
import CallForm.Proofs.Source.Canonical
import CallForm.Proofs.Target.Strings

namespace CallForm

theorem not_mem_intercalate {α : Type} {x : α} {sep : List α} {ls : List (List α)}
    (hsep : x ∉ sep) (h : ∀ l ∈ ls, x ∉ l) : x ∉ sep.intercalate ls := by
  cases ls with
  | nil => simp
  | cons l ls =>
    obtain ⟨hl, hls⟩ := List.forall_mem_cons.mp h
    rw [Source.Node.intercalate_cons, List.mem_append, List.mem_flatMap]
    rintro (hx | ⟨k, hk, hx⟩)
    · exact hl hx
    · exact (List.mem_append.mp hx).elim hsep (hls k hk)

/-! ## Quoted strings -/

namespace Json

theorem newline_not_mem_escape (c : Char) : '\n' ∉ escape c := by
  obtain ⟨d, hc, -, hvalue⟩ | ⟨hc, hcode⟩ | ⟨hc, -, -, hcode⟩ := escape_cases c
  · have hd : '\n' ≠ d := by
      rintro rfl
      simp [unescape?] at hvalue
    simp [hc, hd]
  · have hdigit : ∀ n < 16, '\n' ≠ hexDigit n := by decide
    have hhigh := hdigit (c.toNat / 16) (by omega)
    have hlow := hdigit (c.toNat % 16) (by omega)
    simp [hc, hhigh, hlow]
  · have hne : '\n' ≠ c := by
      rintro rfl
      exact hcode (by decide)
    simp [hc, hne]

theorem newline_not_mem_quoted (s : String) : '\n' ∉ (quoted s).toList := by
  simp [toList_quoted, newline_not_mem_escape]

/-- A quoted string at the front of a text is read as a value, and no more than it. -/
theorem readValue_quoted (depth : Nat) (s : String) (rest : List Char) :
    readValue depth ((quoted s).toList ++ rest) = .ok (.string s, rest) := by
  have hskip : skipBlanks ('"' :: (s.toList.flatMap escape ++ '"' :: rest)) =
      '"' :: (s.toList.flatMap escape ++ '"' :: rest) := rfl
  rw [readValue.eq_def, quoted_append, hskip]
  simp [readString_escaped, Except.map]

end Json

namespace Target

/-! ## Fragments -/

/-- A piece of code: a quoted string, or the text between two of them. -/
inductive Fragment where
  | plain (text : String)
  | quoted (value : String)

namespace Fragment

def text : Fragment → String
  | .plain text => text
  | .quoted value => Json.quoted value

def value? : Fragment → Option String
  | .plain _ => none
  | .quoted value => some value

/-- The text of fragments one after another. -/
def spelled (fs : List Fragment) : List Char := fs.flatMap fun f => f.text.toList

@[simp] theorem spelled_nil : spelled [] = [] := rfl

@[simp] theorem spelled_plain_cons (text : String) (fs : List Fragment) :
    spelled (.plain text :: fs) = text.toList ++ spelled fs := rfl

@[simp] theorem spelled_quoted_cons (value : String) (fs : List Fragment) :
    spelled (.quoted value :: fs) = (Json.quoted value).toList ++ spelled fs := rfl

@[simp] theorem spelled_append (fs gs : List Fragment) :
    spelled (fs ++ gs) = spelled fs ++ spelled gs :=
  List.flatMap_append

theorem spelled_intercalate (separator : String) (fss : List (List Fragment)) :
    spelled ([.plain separator].intercalate fss) =
      separator.toList.intercalate (fss.map spelled) := by
  cases fss with
  | nil => rfl
  | cons fs fss =>
    rw [List.map_cons, Source.Node.intercalate_cons, Source.Node.intercalate_cons,
      spelled_append, List.flatMap_map]
    exact congrArg _ List.flatMap_assoc

theorem values_intercalate (separator : String) (fss : List (List Fragment)) :
    ([.plain separator].intercalate fss).filterMap value? = fss.flatMap (·.filterMap value?) := by
  cases fss with
  | nil => rfl
  | cons fs fss =>
    rw [Source.Node.intercalate_cons, List.filterMap_append, List.filterMap_flatMap]
    rfl

end Fragment

namespace Node

mutual

/-- The code of a tree with strings quoted, cut at the quoted strings. -/
def fragments (statements arguments : String) : Node → List Fragment
  | .program body => [.plain statements].intercalate (fragmentsAll statements arguments body)
  | .statement callee passed =>
    .plain (callee ++ "(") ::
      ([.plain arguments].intercalate (fragmentsAll statements arguments passed) ++ [.plain ")"])
  | .call callee passed =>
    .plain (callee ++ "(") ::
      ([.plain arguments].intercalate (fragmentsAll statements arguments passed) ++ [.plain ")"])
  | .identifier name => [.plain name]
  | .number digits => [.plain digits]
  | .string value => [.quoted value]

def fragmentsAll (statements arguments : String) : List Node → List (List Fragment)
  | [] => []
  | node :: others =>
    fragments statements arguments node :: fragmentsAll statements arguments others

end

theorem fragmentsAll_eq_map (statements arguments : String) (ms : List Node) :
    fragmentsAll statements arguments ms = ms.map (fragments statements arguments) := by
  induction ms with
  | nil => rfl
  | cons m ms ih => rw [fragmentsAll, ih, List.map_cons]

/-- The string a node stands for, if it is one. -/
def value? : Node → Option String
  | .string value => some value
  | .program _ | .statement _ _ | .call _ _ | .identifier _ | .number _ => none

section

open Fragment (spelled)

variable (statements arguments : String)

theorem spelled_joined {separator : String} {ms : List Node}
    (h : ∀ m ∈ ms, spelled (m.fragments statements arguments) =
      (m.written statements arguments).toList) :
    spelled ([.plain separator].intercalate (fragmentsAll statements arguments ms)) =
      (separator.intercalate (writtenAll statements arguments ms)).toList := by
  rw [fragmentsAll_eq_map, writtenAll_eq_map, Fragment.spelled_intercalate,
    String.toList_intercalate, List.map_map, List.map_map]
  exact congrArg _ (List.map_congr_left h)

theorem spelled_fragments (m : Node) :
    spelled (m.fragments statements arguments) = (m.written statements arguments).toList := by
  induction m using tree_induction with
  | program body ih => exact spelled_joined statements arguments ih
  | statement callee passed ih =>
    simp [-String.toList_intercalate, fragments, written, spelled_joined statements arguments ih]
  | call callee passed ih =>
    simp [-String.toList_intercalate, fragments, written, spelled_joined statements arguments ih]
  | identifier name => simp [fragments, written]
  | number digits => simp [fragments, written]
  | string value => simp [fragments, written]

theorem values_joined {separator : String} {ms : List Node}
    (h : ∀ m ∈ ms, (m.fragments statements arguments).filterMap Fragment.value? =
      m.nodes.filterMap value?) :
    ([.plain separator].intercalate (fragmentsAll statements arguments ms)).filterMap
        Fragment.value? = (nodesAll ms).filterMap value? := by
  rw [fragmentsAll_eq_map, Fragment.values_intercalate, List.flatMap_map]
  induction ms with
  | nil => rfl
  | cons m ms ih =>
    obtain ⟨hm, hms⟩ := List.forall_mem_cons.mp h
    rw [List.flatMap_cons, nodesAll, List.filterMap_append, hm, ih hms]

theorem values_fragments (m : Node) :
    (m.fragments statements arguments).filterMap Fragment.value? = m.nodes.filterMap value? := by
  induction m using tree_induction with
  | program body ih => exact values_joined statements arguments ih
  | statement callee passed ih =>
    simp [fragments, nodes, List.filterMap_cons, Fragment.value?, value?,
      values_joined statements arguments ih]
  | call callee passed ih =>
    simp [fragments, nodes, List.filterMap_cons, Fragment.value?, value?,
      values_joined statements arguments ih]
  | identifier name => rfl
  | number digits => rfl
  | string value => rfl

end

/-! ## Lines -/

/-- What stands in the code as it is, which is all but strings, holds no line break. -/
def OneLine : Node → Prop
  | .statement callee _ | .call callee _ => '\n' ∉ callee.toList
  | .identifier name => '\n' ∉ name.toList
  | .number digits => '\n' ∉ digits.toList
  | .program _ | .string _ => True

/-- In and below the arguments of a converted call there is no program. -/
theorem kind_ne_program_of_passable {m : Node} (hm : m.kind ≠ .program)
    (h : ∀ x ∈ m.passed, x.Passable) : ∀ n ∈ m.nodes, n.kind ≠ .program := by
  have harguments : ∀ {arguments : List Node},
      (∀ m ∈ arguments, m.kind ≠ .program → (∀ x ∈ m.passed, x.Passable) →
        ∀ n ∈ m.nodes, n.kind ≠ .program) →
      (∀ x ∈ arguments ++ passedAll arguments, x.Passable) →
      ∀ n ∈ nodesAll arguments, n.kind ≠ .program := by
    intro arguments ih h n hn
    obtain ⟨hhere, hbelow⟩ := List.forall_mem_append.mp h
    obtain ⟨m, hm, hn⟩ := mem_nodesAll.mp hn
    have hkind : m.kind ≠ .program := by
      intro hk
      have hpassable := hhere m hm
      simp [Passable, hk] at hpassable
    exact ih m hm hkind (forall_mem_passedAll.mp hbelow m hm) n hn
  induction m using tree_induction with
  | program body _ => exact absurd rfl hm
  | statement callee arguments ih =>
    have hbelow := harguments ih h
    simp only [nodes, List.forall_mem_cons]
    exact ⟨by simp [kind], by simp [kind], by simp [kind], hbelow⟩
  | call callee arguments ih =>
    have hbelow := harguments ih h
    simp only [nodes, List.forall_mem_cons]
    exact ⟨by simp [kind], by simp [kind], hbelow⟩
  | identifier name => simp [nodes, kind]
  | number digits => simp [nodes, kind]
  | string value => simp [nodes, kind]

/-- The code of a call with these arguments. -/
theorem newline_not_mem_call {statements separator callee : String} {arguments : List Node}
    (hseparator : '\n' ∉ separator.toList) (hcallee : '\n' ∉ callee.toList)
    (h : ∀ m ∈ arguments, '\n' ∉ (m.written statements separator).toList) :
    '\n' ∉ (callee ++ "(" ++
      separator.intercalate (writtenAll statements separator arguments) ++ ")").toList := by
  have hjoined : '\n' ∉ separator.toList.intercalate
      (arguments.map fun m => (m.written statements separator).toList) :=
    not_mem_intercalate hseparator (List.forall_mem_map.mpr h)
  simpa [writtenAll_eq_map, Function.comp_def, hcallee] using hjoined

/-- A tree without programs in it is written in one line. -/
theorem newline_not_mem_written {statements separator : String}
    (hseparator : '\n' ∉ separator.toList) {m : Node}
    (h : ∀ n ∈ m.nodes, n.kind ≠ .program ∧ n.OneLine) :
    '\n' ∉ (m.written statements separator).toList := by
  induction m using tree_induction with
  | program body _ => exact absurd rfl (h _ (mem_nodes_self _)).1
  | statement callee arguments ih =>
    simp only [nodes, List.forall_mem_cons] at h
    obtain ⟨⟨-, hcallee⟩, -, -, harguments⟩ := h
    exact newline_not_mem_call hseparator hcallee fun m hm =>
      ih m hm fun n hn => harguments n (mem_nodesAll.mpr ⟨m, hm, hn⟩)
  | call callee arguments ih =>
    simp only [nodes, List.forall_mem_cons] at h
    obtain ⟨⟨-, hcallee⟩, -, harguments⟩ := h
    exact newline_not_mem_call hseparator hcallee fun m hm =>
      ih m hm fun n hn => harguments n (mem_nodesAll.mpr ⟨m, hm, hn⟩)
  | identifier name => exact (h _ (mem_nodes_self _)).2
  | number digits => exact (h _ (mem_nodes_self _)).2
  | string value => exact Json.newline_not_mem_quoted value

end Node

/-- In and below the elements of a program in normal form there is no program. -/
theorem Program.Normal.kind_ne_program {t : Program} (h : t.Normal) :
    ∀ n ∈ t.below, n.kind ≠ .program := by
  intro n hn
  obtain ⟨m, hm, hn⟩ := Node.mem_nodesAll.mp hn
  have hkind : m.kind ≠ .program := by
    obtain hk | hk | hk := h.body m hm <;> simp [hk]
  exact Node.kind_ne_program_of_passable hkind (Node.forall_mem_passedAll.mp h.passed m hm) n hn

/-- The code of a program, cut at the quoted strings in it. -/
def Program.fragments (separator : String) (t : Program) : List Fragment :=
  (Node.program t.body).fragments "\n" separator

/-- The code of a converted program with strings quoted, statements in lines of their own and
    no line break in names, numbers and the other separator: its lines are the codes of the
    elements of the program in order. And it is made of fragments of which the quoted ones hold
    the strings of the program in order, and each, read as JSON where it stands in the code, is
    its string. -/
theorem code_line_by_line {t : Program} {separator : String} (hbody : t.body ≠ [])
    (himage : ∃ q, (Conversion.convert q).result = .ok t)
    (honeLine : ∀ m ∈ t.below, m.OneLine) (hseparator : '\n' ∉ separator.toList) :
    let style : CodeStyle := ⟨.quote, "\n", separator⟩
    ∃ (text : String) (lines : List String), t.code style = .ok text ∧
      t.body.map (Node.code style) = lines.map .ok ∧
      text.toList.splitOn '\n' = lines.map String.toList ∧
      Fragment.spelled (t.fragments separator) = text.toList ∧
      (t.fragments separator).filterMap Fragment.value? = t.below.filterMap Node.value? ∧
      ∀ before value behind, t.fragments separator = before ++ .quoted value :: behind →
        ∀ depth, Json.readValue depth (text.toList.drop (Fragment.spelled before).length) =
          .ok (.string value, Fragment.spelled behind) := by
  intro style
  obtain ⟨q, hq⟩ := himage
  have hnormal : t.Normal := (Conversion.result_convert_eq_ok_iff.mp hq).1
  have hcode : ∀ m : Node, m.code style = .ok (m.written "\n" separator) := by
    intro m
    simp [code_eq, Node.outcome, style]
  have hlines : ∀ line ∈ t.body.map fun m => (m.written "\n" separator).toList,
      '\n' ∉ line := by
    refine List.forall_mem_map.mpr fun m hm => Node.newline_not_mem_written hseparator ?_
    intro n hn
    have hbelow : n ∈ t.below := Node.mem_nodesAll.mpr ⟨m, hm, hn⟩
    exact ⟨hnormal.kind_ne_program n hbelow, honeLine n hbelow⟩
  have hspelled : Fragment.spelled (t.fragments separator) =
      ((Node.program t.body).written "\n" separator).toList := Node.spelled_fragments _ _ _
  refine ⟨_, t.body.map (Node.written "\n" separator), hcode (.program t.body), ?_, ?_,
    hspelled, ?_, fun before value behind hsplit depth => ?_⟩
  · rw [List.map_map]
    exact List.map_congr_left fun m _ => hcode m
  · rw [Node.written, Node.writtenAll_eq_map, String.toList_intercalate, List.map_map]
    exact List.splitOn_intercalate '\n' hlines (by simpa using hbody)
  · rw [Program.fragments, Node.values_fragments]
    rfl
  · rw [← hspelled, hsplit, Fragment.spelled_append, List.drop_left]
    exact Json.readValue_quoted depth value _

/-- Of two strings, one with a line break and a control character and one with a quote, the
    second is an element of the program itself. -/
theorem strings_with_line_breaks_stay_in_their_lines :
    let t : Program :=
      ⟨[.statement "f" [.number "1", .call "g" [.string "a\n\x01"]], .string "\"\n"]⟩
    let style : CodeStyle := ⟨.quote, "\n", " "⟩
    let text := "f(1 g(\"a\\n\\u0001\"))\n\"\\\"\\n\""
    t.body ≠ [] ∧ (∃ q, (Conversion.convert q).result = .ok t) ∧ (∀ m ∈ t.below, m.OneLine) ∧
      '\n' ∉ " ".toList ∧ t.code style = .ok text ∧
      (∃ lines : List String, t.body.map (Node.code style) = lines.map .ok ∧
        text.toList.splitOn '\n' = lines.map String.toList ∧ lines.length = 2) ∧
      t.below.filterMap Node.value? = ["a\n\x01", "\"\n"] ∧
      ∀ depth, Json.readValue depth (text.toList.drop 6) =
        .ok (.string "a\n\x01", text.toList.drop 17) := by
  intro t style text
  have hbody : t.body ≠ [] := List.cons_ne_nil _ _
  have himage : ∃ q, (Conversion.convert q).result = .ok t := ⟨t.erased, rfl⟩
  have honeLine : ∀ m ∈ t.below, m.OneLine := by
    simp [t, Program.below, Node.nodes, Node.nodesAll, Node.OneLine]
  have hseparator : '\n' ∉ " ".toList := by decide
  have htext : t.code style = .ok text := rfl
  obtain ⟨text', lines, hcode, hmap, hsplit, -, -, hread⟩ :=
    code_line_by_line hbody himage honeLine hseparator
  obtain rfl : text = text' := Except.ok.inj (htext.symm.trans hcode)
  have hlength := congrArg List.length hmap
  rw [List.length_map, List.length_map] at hlength
  let before : List Fragment := [.plain "f(", .plain "1", .plain " ", .plain "g("]
  let behind : List Fragment := [.plain ")", .plain ")", .plain "\n", .quoted "\"\n"]
  have hbefore : (Fragment.spelled before).length = 6 := by decide
  have hbehind : Fragment.spelled behind = text.toList.drop 17 := by decide
  refine ⟨hbody, himage, honeLine, hseparator, htext, ⟨lines, hmap, hsplit, hlength.symm⟩, rfl,
    fun depth => ?_⟩
  have hhere := hread before "a\n\x01" behind rfl depth
  rw [hbefore, hbehind] at hhere
  exact hhere

end Target

end CallForm
