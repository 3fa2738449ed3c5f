/-
  CallForm.Proofs.Tagged.Written — nodes read back from the objects that are written for them.

  A dialect writes a node as an object that names the node's kind first and has a member for
  each field (`Dialect.Writes`). Such an object is read as the node below others
  (`Writes.node_eq`) and as the outermost (`Writes.ofJsonAs_eq`); its text is read as the node
  where it nests no deeper than allowed, and is malformed where it does: no error of the data
  comes before that (`Writes.ofText_eq`).
-/

import CallForm.Proofs.Json.Reading
import CallForm.Tagged.Text
import CallForm.Tagged.Write

namespace CallForm.Tagged

open Json (Blank Legible Layout spelled spelledMember)

namespace Dialect

variable {κ ν : Type} (d : Dialect κ ν)

/-- Every kind is found by its name, and the tag is no field. -/
structure Lawful : Prop where
  tag : ∀ nested kind, d.readTag nested (.string (d.name kind)) = .ok kind
  untagged : ∀ kind, (d.slots kind).lookup "type" = none

theorem tagOfMembers_untagged {nested : Bool} {kind : κ} {members : List (String × Json)}
    (h : ∀ m ∈ members, m.1 ≠ "type") : d.tagOfMembers nested (some kind) members = .ok kind := by
  induction members with
  | nil => rfl
  | cons m members ih =>
    obtain ⟨hm, hmembers⟩ := List.forall_mem_cons.mp h
    simp [tagOfMembers, hm, ih hmembers]

/-! ## Errors before a fault -/

variable {d}

/-- The value of this member is no error of its own: it is passed, or its text has a fault. -/
def Quiet (d : Dialect κ ν) (m : String × Json) : Prop :=
  ∀ (l : Layout) (level : Nat) (rest : List Char),
    d.earlyMember m.1 (l.gap ++ (spelled l level m.2 ++ rest)) = .ok none ∨
    d.earlyMember m.1 (l.gap ++ (spelled l level m.2 ++ rest)) = .ok (some rest)

theorem quiet_field {m : String × Json} (hm : m.1 ≠ "type") (hlegible : m.2.Legible) :
    d.Quiet m := by
  intro l level rest
  have hvalue := (hlegible l level (Json.maxDepth - 1)).read l.gap_blank rest
  rw [earlyMember, if_neg hm, hvalue]
  by_cases hdepth : m.2.nesting ≤ Json.maxDepth - 1
  · exact .inr (by simp [Json.limited, hdepth, Except.map])
  · exact .inl (by simp [Json.limited, hdepth, Except.map])

theorem quiet_tag (hd : d.Lawful) (kind : κ) : d.Quiet ("type", .string (d.name kind)) := by
  intro l level rest
  rw [earlyMember, if_pos rfl, earlyTag, Json.readShallow_string _ l level l.gap_blank]
  simp [hd.tag false kind, Except.map]

theorem earlyErrorInObject_member {tagged : Bool} {m : String × Json}
    (hm : (m.1 = "type" && tagged) = false) (hquiet : d.Quiet m) (l : Layout) (level bound : Nat)
    {bs : List Char} (hbs : Blank bs) {rest : List Char}
    (hrest : ∀ next, Json.skipBlanks rest = ',' :: next →
      d.earlyErrorInObject (tagged || m.1 = "type") bound next = none) :
    d.earlyErrorInObject tagged (bound + 1) (bs ++ (spelledMember l level m ++ rest)) = none := by
  have hname := Json.readString_escaped m.1 (':' :: (l.gap ++ (spelled l level m.2 ++ rest)))
  have hcolon : ∀ cs, Json.skipBlanks (':' :: cs) = ':' :: cs := Json.skipBlanks_cons rfl
  rw [earlyErrorInObject, hbs.skip, spelledMember, List.append_assoc, Json.quoted_append,
    Json.skipBlanks_cons rfl, List.cons_append, List.append_assoc]
  obtain hvalue | hvalue := hquiet l level rest
  · simp [hname, hm, hcolon, hvalue]
  · simp only [hname, hm, hcolon, hvalue, Bool.false_eq_true, ↓reduceIte]
    split
    · exact hrest _ ‹_›
    · rfl

/-- No error comes from quiet members of which only the first may be a tag. -/
theorem earlyErrorInObject_members {tagged : Bool} {m : String × Json}
    {members : List (String × Json)} (hm : (m.1 = "type" && tagged) = false)
    (huntagged : ∀ x ∈ members, x.1 ≠ "type") (hquiet : ∀ x ∈ m :: members, d.Quiet x)
    (l : Layout) (level bound : Nat) {bs : List Char} (hbs : Blank bs) (rest : List Char) :
    d.earlyErrorInObject tagged bound (bs ++
      (l.listed level ((m :: members).map (spelledMember l (level + 1))) ++ '\x7d' :: rest)) =
        none := by
  -- By induction on the members behind the first, which end at the brace.
  induction members generalizing m tagged bound bs with
  | nil =>
    have hclose := l.skip_line level (c := '\x7d') rfl rest
    obtain _ | bound := bound
    · rfl
    rw [List.map_cons, List.map_nil, Layout.listed, List.append_assoc]
    refine earlyErrorInObject_member hm (hquiet m (by simp)) l _ bound hbs fun next hnext => ?_
    simp [hclose] at hnext
  | cons other members ih =>
    obtain ⟨hother, hmembers⟩ := List.forall_mem_cons.mp huntagged
    obtain ⟨hmquiet, hquiet⟩ := List.forall_mem_cons.mp hquiet
    obtain _ | bound := bound
    · rfl
    rw [List.map_cons, List.map_cons, Layout.listed, ← List.map_cons, List.append_assoc]
    refine earlyErrorInObject_member hm hmquiet l _ bound hbs fun next hnext => ?_
    rw [List.cons_append, Json.skipBlanks_cons rfl, List.append_assoc, List.cons.injEq] at hnext
    rw [← hnext.2]
    exact ih (by simp [hother]) hmembers hquiet bound (l.line_blank (level + 1))

/-- A tagged object has no error that stands before a fault of its text. -/
theorem earlyError?_tagged (hd : d.Lawful) (kind : κ) {fields : List (String × Json)}
    (huntagged : ∀ m ∈ fields, m.1 ≠ "type") (hlegible : ∀ m ∈ fields, m.2.Legible)
    (l : Layout) (level : Nat) :
    d.earlyError? (spelled l level (.tagged (d.name kind) fields)) = none := by
  have hquiet : ∀ m ∈ ("type", .string (d.name kind)) :: fields, d.Quiet m :=
    List.forall_mem_cons.mpr
      ⟨quiet_tag hd kind, fun m hm => quiet_field (huntagged m hm) (hlegible m hm)⟩
  rw [Json.tagged, spelled, Json.spelledMembers_eq_map, List.map_cons, Layout.between,
    List.append_assoc, earlyError?, Json.skipBlanks_cons rfl]
  exact earlyErrorInObject_members rfl huntagged hquiet l level _ (l.line_blank _) []

/-! ## Written nodes -/

variable [DecidableEq κ]

/-- An object that a dialect reads as a node from whatever text it is written as: it names the
    node's kind first, and the fields after that are legible and make the node. -/
inductive Writes (d : Dialect κ ν) : Json → ν → Prop
  | tagged (kind : κ) (filled : Fields ν) {fields : List (String × Json)} {node : ν}
    (untagged : ∀ m ∈ fields, m.1 ≠ "type") (legible : ∀ m ∈ fields, m.2.Legible)
    (fill : d.fillMembers kind {} (d.rolesOfMembers fields) = .ok filled)
    (build : d.build kind filled = .ok node) : Writes d (.tagged (d.name kind) fields) node

theorem Writes.legible {v : Json} {node : ν} (h : d.Writes v node) : v.Legible := by
  obtain ⟨-, -, -, hlegible, -, -⟩ := h
  exact Json.legible_object (List.forall_mem_cons.mpr ⟨Json.legible_string _, hlegible⟩)

theorem Writes.ofMembers (hd : d.Lawful) {v : Json} {node : ν} (h : d.Writes v node) :
    ∃ members, v = .object members ∧
      ∀ nested, d.ofMembers nested members (d.rolesOfMembers members) = .ok node := by
  obtain @⟨kind, filled, fields, _, huntagged, -, hfill, hbuild⟩ := h
  refine ⟨_, rfl, fun nested => ?_⟩
  have htag : d.tagOfMembers nested none (("type", .string (d.name kind)) :: fields) =
      .ok kind := by
    simp [tagOfMembers, hd.tag nested kind, tagOfMembers_untagged d huntagged, bind, Except.bind]
  have hfields : d.fillMembers kind {}
      (d.rolesOfMembers (("type", .string (d.name kind)) :: fields)) = .ok filled := by
    simp only [rolesOfMembers, fillMembers, hd.untagged kind, hfill]
  simp [Dialect.ofMembers, htag, hfields, hbuild, bind, Except.bind]

/-- A written node is read below others. -/
theorem Writes.node_eq (hd : d.Lawful) {v : Json} {node : ν} (h : d.Writes v node) :
    (d.roles v).node = .ok node := by
  obtain ⟨members, rfl, hmembers⟩ := h.ofMembers hd
  exact hmembers true

/-- No object is written for two nodes. -/
theorem Writes.unique (hd : d.Lawful) {v : Json} {node other : ν} (h : d.Writes v node)
    (h' : d.Writes v other) : node = other :=
  Except.ok.inj ((h.node_eq hd).symm.trans (h'.node_eq hd))

theorem Writes.nodes_eq (hd : d.Lawful) {json : ν → Json} {nodes : List ν}
    (h : ∀ n ∈ nodes, d.Writes (json n) n) :
    (d.roles (.array (nodes.map json))).nodes = .ok nodes := by
  rw [roles]
  induction nodes with
  | nil => rfl
  | cons node nodes ih =>
    obtain ⟨hnode, hnodes⟩ := List.forall_mem_cons.mp h
    have hothers : (d.rolesOfItems (nodes.map json)).mapM Roles.node = .ok nodes := ih hnodes
    simp [rolesOfItems, hnode.node_eq hd, hothers, bind, Except.bind, pure, Except.pure]

theorem Writes.legible_array {json : ν → Json} {nodes : List ν}
    (h : ∀ n ∈ nodes, d.Writes (json n) n) : (Json.array (nodes.map json)).Legible :=
  Json.legible_array (List.forall_mem_map.mpr fun n hn => (h n hn).legible)

/-- A written node is read as the outermost, also where its kind is asked for. -/
theorem Writes.ofJsonAs_eq (hd : d.Lawful) {v : Json} {node : ν} (h : d.Writes v node)
    {root : Option κ} (hroot : root = none ∨ root = some (d.kindOf node)) :
    d.ofJsonAs root v = .ok node := by
  obtain ⟨members, rfl, hmembers⟩ := h.ofMembers hd
  obtain rfl | rfl := hroot <;> simp [ofJsonAs, ofJson, hmembers, narrow, bind, Except.bind]

theorem Writes.ofText_eq (hd : d.Lawful) {v : Json} {node : ν} (h : d.Writes v node)
    {root : Option κ} (hroot : root = none ∨ root = some (d.kindOf node)) {text : String}
    (htext : text = v.compact ∨ text = v.pretty) :
    d.ofText root text =
      if v.nesting ≤ Json.maxDepth then .ok node else .error (.fault .malformed) := by
  obtain ⟨l, hl⟩ := Json.exists_layout htext
  have hread := h.legible.readValue_eq l 0 Json.maxDepth
  have hearly : d.earlyError? (spelled l 0 v) = none := by
    obtain @⟨kind, -, fields, -, huntagged, hlegible, -, -⟩ := h
    exact earlyError?_tagged hd kind huntagged hlegible l 0
  rw [ofText, hl, hread, Json.limited]
  by_cases hdepth : v.nesting ≤ Json.maxDepth
  · simp [hdepth, Except.map, h.ofJsonAs_eq hd hroot, Json.skipBlanks]
  · simp [hdepth, Except.map, hearly]

/-! ## Fields -/

variable (d) {kind : κ} {name : String} {fields : Fields ν} (members : List (String × Json))

theorem fillMembers_text (hslot : (d.slots kind).lookup name = some .text)
    (hnone : fields.text = none) (s : String) :
    d.fillMembers kind fields (d.rolesOfMembers ((name, .string s) :: members)) =
      d.fillMembers kind { fields with text := some s } (d.rolesOfMembers members) := by
  simp [rolesOfMembers, fillMembers, hslot, fill, hnone, roles, Except.map, bind, Except.bind]

theorem fillMembers_nodes (hslot : (d.slots kind).lookup name = some .nodes)
    (hnone : fields.nodes = none) {v : Json} {nodes : List ν} (hv : (d.roles v).nodes = .ok nodes) :
    d.fillMembers kind fields (d.rolesOfMembers ((name, v) :: members)) =
      d.fillMembers kind { fields with nodes := some nodes } (d.rolesOfMembers members) := by
  simp [rolesOfMembers, fillMembers, hslot, fill, hnone, hv, Except.map, bind, Except.bind]

theorem fillMembers_child {node : ν}
    (hslot : (d.slots kind).lookup name = some (.child (d.kindOf node)))
    (hnone : fields.child = none) {v : Json} (hv : (d.roles v).node = .ok node) :
    d.fillMembers kind fields (d.rolesOfMembers ((name, v) :: members)) =
      d.fillMembers kind { fields with child := some node } (d.rolesOfMembers members) := by
  simp [rolesOfMembers, fillMembers, hslot, fill, hnone, hv, narrow, Except.map, bind, Except.bind]

variable {d}

/-- A kind with a text and nothing else. -/
theorem writes_text (kind : κ) {name : String} (hname : name ≠ "type")
    (hslot : (d.slots kind).lookup name = some .text) {s : String} {node : ν}
    (hbuild : d.build kind { text := some s } = .ok node) :
    d.Writes (.tagged (d.name kind) [(name, .string s)]) node := by
  refine .tagged kind { text := some s } (by simpa using hname) ?_ ?_ hbuild
  · simpa using Json.legible_string s
  · rw [fillMembers_text d [] hslot rfl]
    rfl

/-- A kind with a list of nodes and nothing else. -/
theorem writes_nodes (hd : d.Lawful) (kind : κ) {name : String} (hname : name ≠ "type")
    (hslot : (d.slots kind).lookup name = some .nodes) {json : ν → Json} {nodes : List ν}
    (h : ∀ n ∈ nodes, d.Writes (json n) n) {node : ν}
    (hbuild : d.build kind { nodes := some nodes } = .ok node) :
    d.Writes (.tagged (d.name kind) [(name, .array (nodes.map json))]) node := by
  refine .tagged kind { nodes := some nodes } (by simpa using hname) ?_ ?_ hbuild
  · simpa using Writes.legible_array h
  · rw [fillMembers_nodes d [] hslot rfl (Writes.nodes_eq hd h)]
    rfl

end Dialect

end CallForm.Tagged
