/-
  CallForm.Proofs.Tagged.Forms — the two forms of a node, read alike.

  A value gives a tag and fields as an object, in any order and beside other members, or as an
  array (`Gives`). In a dialect whose fields can be told apart (`Exact`) the members of an object
  may be put into the order of the fields: fields are filled in either order (`fill_comm`,
  `fillMembers_perm`), other members are passed (`fillMembers_filter`), and of a field that a
  node has there is exactly one member (`length_of_fillMembers`). So either form is read as a
  node exactly where it gives the node's tag and fields that make the node
  (`node_of_makes`, `makes_of_node`).
-/

import Mathlib.Data.List.Pairwise
import Mathlib.Data.List.Zip
import CallForm.Proofs.Json.Within
import CallForm.Proofs.Tagged.Written

namespace CallForm.Tagged

/-- A value gives a tag and fields: an object with exactly one entry for the tag and for each
    field, in any order and beside any others, or an array of the tag and the fields in order. -/
inductive Gives (tag : Json) (fields : List (String × Json)) : Json → Prop
  | object {members : List (String × Json)} :
      (∀ m ∈ ("type", tag) :: fields, members.filter (·.1 = m.1) = [m]) →
      Gives tag fields (.object members)
  | array : Gives tag fields (.array (tag :: fields.map Prod.snd))

namespace Gives

variable {tag : Json} {fields : List (String × Json)}

theorem of_object {members : List (String × Json)} (h : Gives tag fields (.object members)) :
    ∀ m ∈ ("type", tag) :: fields, members.filter (·.1 = m.1) = [m] := by
  cases h
  assumption

theorem of_map_snd {values : List Json} (h : fields.map Prod.snd = values) :
    Gives tag fields (.array (tag :: values)) := by
  rw [← h]
  exact .array

theorem of_array {items : List Json} (h : Gives tag fields (.array items)) :
    items = tag :: fields.map Prod.snd := by
  cases h
  rfl

end Gives

/-- The values of an object's entries `type`, and the first item of an array. -/
inductive HasTag : Json → Json → Prop
  | member {tag : Json} {members : List (String × Json)} : ("type", tag) ∈ members →
      HasTag (.object members) tag
  | head {tag : Json} {items : List Json} : HasTag (.array (tag :: items)) tag

/-- Two fields of one sort would take the same place. -/
def Slot.clashes {κ : Type} : Slot κ → Slot κ → Bool
  | .text, .text | .nodes, .nodes | .child _, .child _ => true
  | _, _ => false

def Slot.isFilled {κ ν : Type} (fields : Fields ν) : Slot κ → Bool
  | .text => fields.text.isSome
  | .nodes => fields.nodes.isSome
  | .child _ => fields.child.isSome

theorem Slot.isFilled_empty {κ ν : Type} (slot : Slot κ) :
    slot.isFilled ({} : Fields ν) = false := by
  cases slot <;> rfl

theorem Slot.clashes_comm {κ : Type} (a b : Slot κ) : a.clashes b = b.clashes a := by
  cases a <;> cases b <;> rfl

namespace Dialect

variable {κ ν : Type} (d : Dialect κ ν) [DecidableEq κ]

/-! ## Roles -/

/-- The node that a value stands for, as the outermost or below others. -/
def node (nested : Bool) : Json → Except DataError ν
  | .array items => d.ofItems nested items (d.rolesOfItems items)
  | .object members => d.ofMembers nested members (d.rolesOfMembers members)
  | v => .error (.invalidType v nodeValue)

theorem ofJson_eq_node (v : Json) : d.ofJson v = d.node false v := by
  cases v <;> rfl

theorem roles_node (v : Json) : (d.roles v).node = d.node true v := by
  cases v <;> rfl

theorem rolesOfItems_eq_map (items : List Json) : d.rolesOfItems items = items.map d.roles := by
  induction items with
  | nil => rfl
  | cons item items ih => rw [rolesOfItems, ih, List.map_cons]

theorem roles_text_eq_ok {v : Json} {s : String} : (d.roles v).text = .ok s ↔ v = .string s := by
  cases v <;> simp [roles]

theorem mapM_eq_ok {ε α β : Type} {f : α → Except ε β} {xs : List α} {ys : List β} :
    xs.mapM f = .ok ys ↔ List.Forall₂ (fun x y => f x = .ok y) xs ys := by
  induction xs generalizing ys with
  | nil => cases ys <;> simp [pure, Except.pure]
  | cons x xs ih =>
    rw [List.mapM_cons, bind_eq_ok]
    simp only [bind_eq_ok, pure, Except.pure, Except.ok.injEq, ih]
    constructor
    · rintro ⟨y, hy, ys, hys, rfl⟩
      exact .cons hy hys
    · rintro (_ | ⟨hy, hys⟩)
      exact ⟨_, hy, _, hys, rfl⟩

theorem roles_nodes_eq_ok {v : Json} {nodes : List ν} :
    (d.roles v).nodes = .ok nodes ↔
      ∃ items, v = .array items ∧ List.Forall₂ (fun w n => d.node true w = .ok n) items nodes := by
  cases v with
  | array items =>
    have hnodes : (d.roles (.array items)).nodes = (items.map d.roles).mapM Roles.node := by
      rw [roles, rolesOfItems_eq_map]
    simp [hnodes, List.mapM_map, Function.comp_def, mapM_eq_ok, roles_node]
  | _ => simp [roles]

/-! ## Tags -/

variable {d} {nested : Bool} {kind : κ}

omit [DecidableEq κ] in
theorem eq_name_of_readTag {s : String} (h : d.readTag nested (.string s) = .ok kind) :
    s = d.name kind := by
  simp only [readTag] at h
  split at h
  · next hfound =>
    obtain rfl := Except.ok.inj h
    have hname := List.find?_some hfound
    exact (of_decide_eq_true hname).symm
  · cases h

omit [DecidableEq κ] in
theorem tagOfMembers_eq_ok {seen : Option κ} {members : List (String × Json)} :
    d.tagOfMembers nested seen members = .ok kind ↔
      (seen = some kind ∧ members.filter (·.1 = "type") = []) ∨
      (seen = none ∧ ∃ tag, members.filter (·.1 = "type") = [("type", tag)] ∧
        d.readTag nested tag = .ok kind) := by
  induction members generalizing seen with
  | nil => cases seen <;> simp [tagOfMembers]
  | cons m members ih =>
    obtain ⟨name, v⟩ := m
    by_cases hname : name = "type"
    · subst hname
      cases seen with
      | some other => simp [tagOfMembers]
      | none => simp [tagOfMembers, bind_eq_ok, ih]; grind
    · have hskip : d.tagOfMembers nested seen ((name, v) :: members) =
          d.tagOfMembers nested seen members := by
        cases seen <;> rw [tagOfMembers, if_neg hname]
      rw [hskip, ih, List.filter_cons_of_neg (by simpa using hname)]

/-! ## Fields -/

omit [DecidableEq κ] in
variable (d) in
/-- The fields of a kind differ in name and in sort, none is the tag, and a node of the kind has
    them all. -/
structure Exact : Prop extends d.Lawful where
  distinct : ∀ kind, (d.slots kind).Pairwise fun a b => a.1 ≠ b.1 ∧ a.2.clashes b.2 = false
  full : ∀ {kind fields node}, d.build kind fields = .ok node →
    ∀ slot ∈ d.slots kind, slot.2.isFilled fields = true
  kindOf_build : ∀ {kind fields node}, d.build kind fields = .ok node → d.kindOf node = kind

variable {name name' : String} {slot slot' : Slot κ} {fields fields' filled : Fields ν}

omit [DecidableEq κ] in
theorem Exact.lookup_of_mem (hd : d.Exact) (h : (name, slot) ∈ d.slots kind) :
    (d.slots kind).lookup name = some slot := by
  have hdistinct := hd.distinct kind
  generalize d.slots kind = slots at h hdistinct
  induction slots with
  | nil => cases h
  | cons a slots ih =>
    obtain ⟨ha, hslots⟩ := List.pairwise_cons.mp hdistinct
    rcases List.mem_cons.mp h with rfl | h
    · rw [List.lookup_cons_self]
    · have hname : (name == a.1) = false := beq_false_of_ne (ha _ h).1.symm
      rw [List.lookup_cons, hname]
      exact ih h hslots

omit [DecidableEq κ] in
theorem mem_of_lookup (h : (d.slots kind).lookup name = some slot) :
    (name, slot) ∈ d.slots kind := by
  obtain ⟨before, after, hslots, -⟩ := List.lookup_eq_some_iff.mp h
  simp [hslots]

omit [DecidableEq κ] in
theorem Exact.clashes_eq_false (hd : d.Exact) (h : (name, slot) ∈ d.slots kind)
    (h' : (name', slot') ∈ d.slots kind) (hne : name ≠ name') : slot.clashes slot' = false := by
  have : Std.Symm fun a b : String × Slot κ => a.1 ≠ b.1 ∧ a.2.clashes b.2 = false :=
    ⟨fun a b hab => ⟨hab.1.symm, (b.2.clashes_comm a.2).trans hab.2⟩⟩
  exact ((hd.distinct kind).forall h h' fun heq => hne (congrArg Prod.fst heq)).2

theorem fill_text_eq_ok {value : Roles ν} :
    d.fill name .text value fields = .ok filled ↔
      fields.text = none ∧ ∃ s, value.text = .ok s ∧ { fields with text := some s } = filled := by
  cases htext : fields.text <;> simp [fill, htext, map_eq_ok]

theorem fill_nodes_eq_ok {value : Roles ν} :
    d.fill name .nodes value fields = .ok filled ↔
      fields.nodes = none ∧
        ∃ ns, value.nodes = .ok ns ∧ { fields with nodes := some ns } = filled := by
  cases hnodes : fields.nodes <;> simp [fill, hnodes, map_eq_ok]

theorem fill_child_eq_ok {value : Roles ν} :
    d.fill name (.child kind) value fields = .ok filled ↔
      fields.child = none ∧ ∃ n, (value.node.bind (d.narrow kind)) = .ok n ∧
        { fields with child := some n } = filled := by
  cases hchild : fields.child <;> simp [fill, hchild, map_eq_ok]

/-- Filling a field fills this sort, which was free, and no other. -/
theorem isFilled_of_fill {value : Roles ν} (h : d.fill name slot value fields = .ok filled) :
    slot.isFilled fields = false ∧ slot.isFilled filled = true ∧
      ∀ other, slot.clashes other = false → other.isFilled filled = other.isFilled fields := by
  cases slot <;> simp only [fill_text_eq_ok, fill_nodes_eq_ok, fill_child_eq_ok] at h <;>
    obtain ⟨hfree, a, -, rfl⟩ := h <;>
    refine ⟨by simp [Slot.isFilled, hfree], rfl, fun other hother => ?_⟩ <;>
    cases other <;> first | rfl | cases hother

/-- Two fields may be filled in either order. -/
theorem fill_comm {value value' : Roles ν}
    (h : d.fill name slot value fields >>= d.fill name' slot' value' = .ok filled) :
    d.fill name' slot' value' fields >>= d.fill name slot value = .ok filled := by
  cases slot <;> cases slot' <;>
    simp only [bind_eq_ok, fill_text_eq_ok, fill_nodes_eq_ok, fill_child_eq_ok] at h ⊢ <;>
    obtain ⟨-, ⟨hfree, a, ha, rfl⟩, hfree', a', ha', rfl⟩ := h <;>
    first | exact ⟨_, ⟨hfree', a', ha', rfl⟩, hfree, a, ha, rfl⟩ | cases hfree'

theorem fillMembers_cons {m : String × Json} {members : List (String × Json)} :
    d.fillMembers kind fields (d.rolesOfMembers (m :: members)) =
      match (d.slots kind).lookup m.1 with
      | none => d.fillMembers kind fields (d.rolesOfMembers members)
      | some slot => d.fill m.1 slot (d.roles m.2) fields >>= fun fields =>
        d.fillMembers kind fields (d.rolesOfMembers members) := by
  obtain ⟨name, v⟩ := m
  cases hslot : (d.slots kind).lookup name <;> simp only [rolesOfMembers, fillMembers, hslot]

/-- The order of the members does not matter. -/
theorem fillMembers_perm {members members' : List (String × Json)} (h : members.Perm members')
    (hfill : d.fillMembers kind fields (d.rolesOfMembers members) = .ok filled) :
    d.fillMembers kind fields (d.rolesOfMembers members') = .ok filled := by
  induction h generalizing fields with
  | nil => exact hfill
  | cons m _ ih =>
    rw [fillMembers_cons] at hfill ⊢
    split at hfill
    · exact ih hfill
    · obtain ⟨fields', hfirst, hothers⟩ := bind_eq_ok.mp hfill
      exact bind_eq_ok.mpr ⟨fields', hfirst, ih hothers⟩
  | swap m m' members =>
    simp only [fillMembers_cons] at hfill ⊢
    cases hm : (d.slots kind).lookup m.1 with
    | none => simpa [hm] using hfill
    | some slot =>
      cases hm' : (d.slots kind).lookup m'.1 with
      | none => simpa [hm, hm'] using hfill
      | some slot' =>
        simp only [hm, hm'] at hfill ⊢
        obtain ⟨fields₁, hfirst, hfill⟩ := bind_eq_ok.mp hfill
        obtain ⟨fields₂, hsecond, hothers⟩ := bind_eq_ok.mp hfill
        obtain ⟨fields₁', hfirst', hsecond'⟩ :=
          bind_eq_ok.mp (fill_comm (bind_eq_ok.mpr ⟨fields₁, hfirst, hsecond⟩))
        exact bind_eq_ok.mpr ⟨fields₁', hfirst', bind_eq_ok.mpr ⟨fields₂, hsecond', hothers⟩⟩
  | trans _ _ ih ih' => exact ih' (ih hfill)

/-- Members that are no fields do not matter. -/
theorem fillMembers_filter (members : List (String × Json)) :
    d.fillMembers kind fields (d.rolesOfMembers members) =
      d.fillMembers kind fields (d.rolesOfMembers
        (members.filter fun m => decide (m.1 ∈ (d.slots kind).map Prod.fst))) := by
  induction members generalizing fields with
  | nil => rfl
  | cons m members ih =>
    rw [fillMembers_cons, List.filter_cons]
    split
    · next hnone =>
      have hm : m.1 ∉ (d.slots kind).map Prod.fst := by
        rintro hm
        obtain ⟨s, hs, hname⟩ := List.mem_map.mp hm
        exact absurd (hname ▸ List.lookup_eq_none_iff.mp hnone s hs) (by simp)
      rw [if_neg (by simpa using hm)]
      exact ih
    · next slot hslot =>
      have hm : m.1 ∈ (d.slots kind).map Prod.fst :=
        List.mem_map_of_mem (f := Prod.fst) (mem_of_lookup hslot)
      rw [if_pos (by simpa using hm), fillMembers_cons, hslot]
      simp only [ih]

/-- As many members have the name of a field as fill it. -/
theorem Exact.length_of_fillMembers (hd : d.Exact) (hslot : (name, slot) ∈ d.slots kind)
    {members : List (String × Json)}
    (h : d.fillMembers kind fields (d.rolesOfMembers members) = .ok filled) :
    (members.filter (·.1 = name)).length + (slot.isFilled fields).toNat =
      (slot.isFilled filled).toNat := by
  induction members generalizing fields with
  | nil =>
    obtain rfl := Except.ok.inj h
    simp
  | cons m members ih =>
    rw [fillMembers_cons] at h
    split at h
    · next hnone =>
      have hname : m.1 ≠ name := by
        rintro rfl
        rw [hd.lookup_of_mem hslot] at hnone
        cases hnone
      rw [List.filter_cons_of_neg (by simpa using hname)]
      exact ih h
    · next slot' hslot' =>
      obtain ⟨fields', hfill, hothers⟩ := bind_eq_ok.mp h
      obtain ⟨hfree, hfilled, hsame⟩ := isFilled_of_fill hfill
      have hrest := ih hothers
      by_cases hname : m.1 = name
      · obtain rfl : slot = slot' := by
          rw [hname, hd.lookup_of_mem hslot] at hslot'
          exact Option.some.inj hslot'
        rw [List.filter_cons_of_pos (by simpa using hname), List.length_cons, hfree]
        rw [hfilled] at hrest
        simpa [Nat.add_right_comm] using hrest
      · have hclash := hd.clashes_eq_false (mem_of_lookup hslot') hslot hname
        rw [List.filter_cons_of_neg (by simpa using hname), ← hsame slot hclash]
        exact hrest

theorem fillInOrder_nil_eq_ok {values : List Json} {done : Nat} :
    d.fillInOrder kind done fields [] (values.map d.roles) = .ok filled ↔
      values = [] ∧ fields = filled := by
  cases values <;> simp [fillInOrder]

theorem fillInOrder_cons_eq_ok {slots : List (String × Slot κ)} {values : List Json}
    {done : Nat} :
    d.fillInOrder kind done fields ((name, slot) :: slots) (values.map d.roles) = .ok filled ↔
      ∃ v others, values = v :: others ∧
        ∃ fields', d.fill name slot (d.roles v) fields = .ok fields' ∧
          d.fillInOrder kind (done + 1) fields' slots (others.map d.roles) = .ok filled := by
  cases values <;> simp [fillInOrder, bind_eq_ok]

/-- Fields in order are read as members of their names. -/
theorem Exact.fillInOrder_eq_ok (hd : d.Exact) {slots : List (String × Slot κ)}
    (hslots : ∀ s ∈ slots, s ∈ d.slots kind) {values : List Json} {done : Nat} :
    d.fillInOrder kind done fields slots (values.map d.roles) = .ok filled ↔
      values.length = slots.length ∧ d.fillMembers kind fields
        (d.rolesOfMembers ((slots.map Prod.fst).zip values)) = .ok filled := by
  induction slots generalizing fields values done with
  | nil => simp [fillInOrder_nil_eq_ok, rolesOfMembers, fillMembers]
  | cons s slots ih =>
    obtain ⟨hs, hslots⟩ := List.forall_mem_cons.mp hslots
    have hlookup : (d.slots kind).lookup s.1 = some s.2 := hd.lookup_of_mem hs
    rw [fillInOrder_cons_eq_ok]
    cases values with
    | nil => simp
    | cons v values => simp [fillMembers_cons, hlookup, bind_eq_ok, ih hslots, and_left_comm]

end Dialect

/-! ## Both forms -/

/-- The entries of these names, each the only one of its name, in whatever order. -/
theorem perm_of_unique {members entries : List (String × Json)}
    (hnodup : (entries.map Prod.fst).Nodup)
    (hunique : ∀ m ∈ entries, members.filter (·.1 = m.1) = [m]) :
    (members.filter fun x => decide (x.1 ∈ entries.map Prod.fst)).Perm entries := by
  induction entries with
  | nil => simp
  | cons m entries ih =>
    obtain ⟨hm, hunique⟩ := List.forall_mem_cons.mp hunique
    obtain ⟨hnotin, hnodup⟩ := List.nodup_cons.mp hnodup
    have hhead : (members.filter fun x => decide (x.1 ∈ (m :: entries).map Prod.fst)).filter
        (fun x => decide (x.1 = m.1)) = [m] := by
      rw [List.filter_filter, ← hm]
      exact List.filter_congr fun x _ => by by_cases hx : x.1 = m.1 <;> simp [hx]
    have htail : (members.filter fun x => decide (x.1 ∈ (m :: entries).map Prod.fst)).filter
        (fun x => !decide (x.1 = m.1)) =
          members.filter fun x => decide (x.1 ∈ entries.map Prod.fst) := by
      rw [List.filter_filter]
      refine List.filter_congr fun x _ => ?_
      by_cases hx : x.1 = m.1
      · simpa [hx] using hnotin
      · simp [hx]
    have hsplit := List.filter_append_perm (fun x => decide (x.1 = m.1))
      (members.filter fun x => decide (x.1 ∈ (m :: entries).map Prod.fst))
    rw [hhead, htail] at hsplit
    exact hsplit.symm.trans ((ih hnodup hunique).cons m)

theorem exists_entries {members : List (String × Json)} {names : List String}
    (h : ∀ name ∈ names, (members.filter (·.1 = name)).length = 1) :
    ∃ values : List Json, values.length = names.length ∧
      ∀ m ∈ names.zip values, members.filter (·.1 = m.1) = [m] := by
  induction names with
  | nil => exact ⟨[], rfl, nofun⟩
  | cons name names ih =>
    obtain ⟨hname, hnames⟩ := List.forall_mem_cons.mp h
    obtain ⟨values, hlength, hvalues⟩ := ih hnames
    obtain ⟨m, hm⟩ := List.length_eq_one_iff.mp hname
    have hmem : m ∈ members.filter (·.1 = name) := hm ▸ List.mem_singleton_self m
    obtain rfl := of_decide_eq_true (List.mem_filter.mp hmem).2
    exact ⟨m.2 :: values, by simp [hlength], List.forall_mem_cons.mpr ⟨hm, hvalues⟩⟩

namespace Dialect

variable {κ ν : Type} (d : Dialect κ ν) [DecidableEq κ]

omit [DecidableEq κ] in
/-- The fields of a kind with these values. -/
def entries (kind : κ) (values : List Json) : List (String × Json) :=
  ((d.slots kind).map Prod.fst).zip values

/-- These values, in the order of the fields, make this node. -/
def Makes (values : List Json) (t : ν) : Prop :=
  ∃ filled, d.fillInOrder (d.kindOf t) 0 {} (d.slots (d.kindOf t)) (values.map d.roles) =
      .ok filled ∧ d.build (d.kindOf t) filled = .ok t

variable {d} {nested : Bool} {kind : κ} {name : String} {v : Json} {values : List Json} {t : ν}

omit [DecidableEq κ] in
theorem map_fst_entries (h : values.length = (d.slots kind).length) :
    (d.entries kind values).map Prod.fst = (d.slots kind).map Prod.fst :=
  List.map_fst_zip (by simp [h])

omit [DecidableEq κ] in
theorem map_snd_entries (h : values.length = (d.slots kind).length) :
    (d.entries kind values).map Prod.snd = values :=
  List.map_snd_zip (by simp [h])

omit [DecidableEq κ] in
theorem Exact.nodup_names (hd : d.Exact) (kind : κ) : ((d.slots kind).map Prod.fst).Nodup :=
  List.pairwise_map.mpr ((hd.distinct kind).imp And.left)

/-- The fields of a kind among the members of an object are read as in order. -/
theorem Exact.fillMembers_entries (hd : d.Exact) {members : List (String × Json)}
    (hlength : values.length = (d.slots kind).length)
    (hunique : ∀ m ∈ d.entries kind values, members.filter (·.1 = m.1) = [m])
    {fields filled : Fields ν} :
    d.fillMembers kind fields (d.rolesOfMembers members) = .ok filled ↔
      d.fillInOrder kind 0 fields (d.slots kind) (values.map d.roles) = .ok filled := by
  have hnames := map_fst_entries hlength
  have hperm := perm_of_unique (hnames ▸ hd.nodup_names kind) hunique
  rw [hnames] at hperm
  rw [hd.fillInOrder_eq_ok fun _ hs => hs, fillMembers_filter]
  exact ⟨fun h => ⟨hlength, fillMembers_perm hperm h⟩, fun h => fillMembers_perm hperm.symm h.2⟩

/-- A value that gives the tag and the fields of a node is read as the node. -/
theorem Exact.node_of_makes (hd : d.Exact) (h : d.Makes values t)
    (hgives : Gives (.string (d.name (d.kindOf t))) (d.entries (d.kindOf t) values) v) :
    d.node nested v = .ok t := by
  obtain ⟨filled, hfill, hbuild⟩ := h
  have hlength := ((hd.fillInOrder_eq_ok fun _ hs => hs).mp hfill).1
  have htag := hd.tag nested (d.kindOf t)
  cases hgives with
  | object h =>
    obtain ⟨htype, hfields⟩ := List.forall_mem_cons.mp h
    have hkind := tagOfMembers_eq_ok.mpr (.inr ⟨rfl, _, htype, htag⟩)
    have hfilled := (hd.fillMembers_entries hlength hfields).mpr hfill
    simp [node, ofMembers, hkind, hfilled, hbuild, bind, Except.bind]
  | array =>
    rw [map_snd_entries hlength]
    simp [node, ofItems, rolesOfItems_eq_map, htag, hfill, hbuild, bind, Except.bind]

/-- Where the tag is a string, a value that is read as a node gives the tag and the fields. -/
theorem Exact.makes_of_node (hd : d.Exact)
    (htags : ∀ tag, HasTag v tag → ∃ s, tag = .string s) (h : d.node nested v = .ok t) :
    ∃ values, Gives (.string (d.name (d.kindOf t))) (d.entries (d.kindOf t) values) v ∧
      d.Makes values t := by
  cases v with
  | array items =>
    cases items with
    | nil => cases h
    | cons tag values =>
      obtain ⟨s, rfl⟩ := htags tag .head
      obtain ⟨kind, htag, h⟩ := bind_eq_ok.mp h
      obtain ⟨filled, hfill, hbuild⟩ := bind_eq_ok.mp h
      obtain rfl := hd.kindOf_build hbuild
      obtain rfl := eq_name_of_readTag htag
      rw [rolesOfItems_eq_map, List.map_cons, List.drop_one, List.tail_cons] at hfill
      have hlength := ((hd.fillInOrder_eq_ok fun _ hs => hs).mp hfill).1
      exact ⟨values, .of_map_snd (map_snd_entries hlength), filled, hfill, hbuild⟩
  | object members =>
    obtain ⟨kind, htag, h⟩ := bind_eq_ok.mp h
    obtain ⟨filled, hfill, hbuild⟩ := bind_eq_ok.mp h
    obtain rfl := hd.kindOf_build hbuild
    obtain ⟨hseen, -⟩ | ⟨-, tag, htype, htag⟩ := tagOfMembers_eq_ok.mp htag
    · cases hseen
    have hmem := (List.mem_filter.mp (htype ▸ List.mem_singleton_self _)).1
    obtain ⟨s, rfl⟩ := htags tag (.member hmem)
    obtain rfl := eq_name_of_readTag htag
    -- each field is filled in the end, and so by exactly one member
    have hone : ∀ name ∈ (d.slots (d.kindOf t)).map Prod.fst,
        (members.filter (·.1 = name)).length = 1 := by
      intro name hname
      obtain ⟨slot, hslot, rfl⟩ := List.mem_map.mp hname
      have hcount := hd.length_of_fillMembers hslot hfill
      rwa [hd.full hbuild slot hslot, Slot.isFilled_empty] at hcount
    obtain ⟨values, hlength, hvalues⟩ := exists_entries hone
    rw [List.length_map] at hlength
    refine ⟨values, .object (List.forall_mem_cons.mpr ⟨htype, hvalues⟩), filled, ?_, hbuild⟩
    exact (hd.fillMembers_entries hlength hvalues).mp hfill
  | _ => cases h

/-! ## What makes a node -/

theorem makes_text (hslots : d.slots (d.kindOf t) = [(name, .text)]) {s : String}
    (hbuild : ∀ s', d.build (d.kindOf t) { text := some s' } = .ok t ↔ s' = s) :
    d.Makes values t ↔ values = [.string s] := by
  simp [Makes, hslots, fillInOrder_cons_eq_ok, fillInOrder_nil_eq_ok, fill_text_eq_ok,
    roles_text_eq_ok, hbuild]

variable {ns : List ν}

theorem makes_nodes (hslots : d.slots (d.kindOf t) = [(name, .nodes)])
    (hbuild : ∀ ns', d.build (d.kindOf t) { nodes := some ns' } = .ok t ↔ ns' = ns) :
    d.Makes values t ↔ ∃ items, values = [.array items] ∧
      List.Forall₂ (fun w n => d.node true w = .ok n) items ns := by
  simp [Makes, hslots, fillInOrder_cons_eq_ok, fillInOrder_nil_eq_ok, fill_nodes_eq_ok,
    roles_nodes_eq_ok, hbuild]

theorem makes_text_nodes {name' : String}
    (hslots : d.slots (d.kindOf t) = [(name, .text), (name', .nodes)]) {s : String}
    (hbuild : ∀ s' ns', d.build (d.kindOf t) { text := some s', nodes := some ns' } = .ok t ↔
      s' = s ∧ ns' = ns) :
    d.Makes values t ↔ ∃ items, values = [.string s, .array items] ∧
      List.Forall₂ (fun w n => d.node true w = .ok n) items ns := by
  simp [Makes, hslots, fillInOrder_cons_eq_ok, fillInOrder_nil_eq_ok, fill_text_eq_ok,
    fill_nodes_eq_ok, roles_text_eq_ok, roles_nodes_eq_ok, hbuild]

theorem bind_narrow_eq_ok {r : Except DataError ν} {n : ν} :
    r.bind (d.narrow kind) = .ok n ↔ r = .ok n ∧ d.kindOf n = kind := by
  have hnarrow (m : ν) : d.narrow kind m = .ok n ↔ m = n ∧ d.kindOf n = kind := by
    unfold narrow
    split
    · next hm => simpa using fun hmn => hmn ▸ hm
    · next hm => simpa using fun hmn => hmn ▸ hm
  cases r with
  | error e => simp [Except.bind]
  | ok m => simpa [Except.bind] using hnarrow m

theorem makes_child (hslots : d.slots (d.kindOf t) = [(name, .child kind)]) {n : ν}
    (hbuild : ∀ n', d.kindOf n' = kind ∧ d.build (d.kindOf t) { child := some n' } = .ok t ↔
      n' = n) :
    d.Makes values t ↔ ∃ w, values = [w] ∧ d.node true w = .ok n := by
  simp [Makes, hslots, fillInOrder_cons_eq_ok, fillInOrder_nil_eq_ok, fill_child_eq_ok,
    bind_narrow_eq_ok, roles_node, hbuild, and_assoc]

theorem makes_child_nodes {name' : String}
    (hslots : d.slots (d.kindOf t) = [(name, .child kind), (name', .nodes)]) {n : ν}
    (hbuild : ∀ n' ns', d.kindOf n' = kind ∧
      d.build (d.kindOf t) { child := some n', nodes := some ns' } = .ok t ↔ n' = n ∧ ns' = ns) :
    d.Makes values t ↔ ∃ w items, values = [w, .array items] ∧ d.node true w = .ok n ∧
      List.Forall₂ (fun w n => d.node true w = .ok n) items ns := by
  simp only [Makes, hslots, fillInOrder_cons_eq_ok, fillInOrder_nil_eq_ok, fill_child_eq_ok,
    bind_narrow_eq_ok, fill_nodes_eq_ok, roles_node, roles_nodes_eq_ok]
  constructor
  · rintro ⟨_, ⟨w, _, rfl, _, ⟨-, n', ⟨hw, hkind⟩, rfl⟩, _, _, rfl, _,
      ⟨-, ns', ⟨items, rfl, hitems⟩, rfl⟩, rfl, rfl⟩, h⟩
    obtain ⟨rfl, rfl⟩ := (hbuild n' ns').mp ⟨hkind, h⟩
    exact ⟨w, items, rfl, hw, hitems⟩
  · rintro ⟨w, items, rfl, hw, hitems⟩
    obtain ⟨hkind, h⟩ := (hbuild n ns).mpr ⟨rfl, rfl⟩
    exact ⟨_, ⟨w, _, rfl, _, ⟨trivial, n, ⟨hw, hkind⟩, rfl⟩, _, _, rfl, _,
      ⟨rfl, ns, ⟨items, rfl, hitems⟩, rfl⟩, rfl, rfl⟩, h⟩

/-! ## Texts -/

/-- Of a text that spells a value, the value alone decides. -/
theorem ofText_eq {text : String} (h : Json.Spells text v) (hdepth : v.nesting ≤ Json.maxDepth)
    (root : Option κ) : d.ofText root text = (d.ofJsonAs root v).mapError .data := by
  obtain ⟨blanks, hblanks, hread⟩ := h.readValue_eq hdepth [] nofun
  simp only [List.append_nil] at hread
  have hend : Json.skipBlanks blanks = [] := by simpa [Json.skipBlanks] using hblanks.skip []
  rw [ofText, hread]
  dsimp only
  cases d.ofJsonAs root v <;> simp [hend, Except.mapError]

theorem ofText_none {text : String} (h : Json.Spells text v)
    (hdepth : v.nesting ≤ Json.maxDepth) :
    d.ofText none text = (d.node false v).mapError .data := by
  rw [ofText_eq h hdepth, ofJsonAs, ofJson_eq_node]
  cases d.node false v <;> rfl

theorem ofText_eq_ok {text : String} (h : Json.Spells text v)
    (hdepth : v.nesting ≤ Json.maxDepth) :
    d.ofText none text = .ok t ↔ d.node false v = .ok t := by
  rw [ofText_none h hdepth]
  cases d.node false v <;> simp [Except.mapError]

end Dialect

end CallForm.Tagged
