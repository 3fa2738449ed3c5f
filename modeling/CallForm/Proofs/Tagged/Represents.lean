/-
  CallForm.Proofs.Tagged.Represents — what is read as a tree is what represents one.

  `Source.Represents` and `Target.Represents` say which values stand for a tree, node by node and
  in either form. What represents a tree is read as the tree (`Represents.node_eq`); the
  converse needs that no number stands at the place of a tag (`represents_of_node`), since below
  others a kind is also read from its index. Both go by induction on the tree, whose children are
  the items of its list. Representations do not depend on the order of members
  (`Represents.reordered`). All of this is put together for texts in
  `texts_read_as_represented`.
-/

import CallForm.Proofs.Json.Order
import CallForm.Proofs.Tagged.Forms
import CallForm.Proofs.Tagged.RoundTrip

namespace CallForm

open Tagged (Gives HasTag sourceDialect targetDialect)

/-! ## Representations -/

/-- A value represents a source tree: it gives the kind and the fields of the root, in which
    lists represent the children one by one. -/
inductive Source.Represents : Json → Node → Prop
  | program {v : Json} {items : List Json} {body : List Node} :
      Gives (.string "Program") [("body", .array items)] v → List.Forall₂ Represents items body →
      Represents v (.program body)
  | call {v : Json} {name : String} {items : List Json} {params : List Node} :
      Gives (.string "CallExpression") [("name", .string name), ("params", .array items)] v →
      List.Forall₂ Represents items params → Represents v (.call name params)
  | number {v : Json} {digits : String} :
      Gives (.string "NumberLiteral") [("value", .string digits)] v → Represents v (.number digits)
  | string {v : Json} {value : String} :
      Gives (.string "StringLiteral") [("value", .string value)] v → Represents v (.string value)

/-- A value represents a target tree, where the expression of a statement is a call and the
    callee of a call an identifier. -/
inductive Target.Represents : Json → Node → Prop
  | program {v : Json} {items : List Json} {body : List Node} :
      Gives (.string "Program") [("body", .array items)] v → List.Forall₂ Represents items body →
      Represents v (.program body)
  | statement {v w : Json} {callee : String} {arguments : List Node} :
      Gives (.string "ExpressionStatement") [("expression", w)] v →
      Represents w (.call callee arguments) → Represents v (.statement callee arguments)
  | call {v w : Json} {callee : String} {items : List Json} {arguments : List Node} :
      Gives (.string "CallExpression") [("callee", w), ("arguments", .array items)] v →
      Represents w (.identifier callee) → List.Forall₂ Represents items arguments →
      Represents v (.call callee arguments)
  | identifier {v : Json} {name : String} :
      Gives (.string "Identifier") [("name", .string name)] v → Represents v (.identifier name)
  | number {v : Json} {digits : String} :
      Gives (.string "NumberLiteral") [("value", .string digits)] v → Represents v (.number digits)
  | string {v : Json} {value : String} :
      Gives (.string "StringLiteral") [("value", .string value)] v → Represents v (.string value)

namespace Tagged

namespace Dialect

variable {κ ν : Type} (d : Dialect κ ν)

/-- In this value a node is due there: as a field that holds one node of some kind, or among the
    items of a field that holds a list. -/
inductive Below : Json → Json → Prop
  | child {v w : Json} {kind other : κ} {values : List Json} {name : String} :
      Gives (.string (d.name kind)) (d.entries kind values) v →
      (name, w) ∈ d.entries kind values → (name, .child other) ∈ d.slots kind → Below v w
  | item {v w : Json} {kind : κ} {values items : List Json} {name : String} :
      Gives (.string (d.name kind)) (d.entries kind values) v →
      (name, .array items) ∈ d.entries kind values → (name, .nodes) ∈ d.slots kind → w ∈ items →
      Below v w

/-- The values at the places of tags: the tag of the value itself, and those of the values
    below it. -/
inductive TagIn : Json → Json → Prop
  | own {v tag : Json} : HasTag v tag → TagIn v tag
  | deeper {v w tag : Json} : d.Below v w → TagIn w tag → TagIn v tag

/-- Every value at the place of a tag is a string. -/
def StringTags (v : Json) : Prop := ∀ tag, d.TagIn v tag → ∃ s, tag = .string s

variable {d}

theorem StringTags.own {v : Json} (h : d.StringTags v) (tag : Json) (htag : HasTag v tag) :
    ∃ s, tag = .string s := h tag (.own htag)

theorem StringTags.below {v w : Json} (h : d.StringTags v) (hbelow : d.Below v w) :
    d.StringTags w := fun tag htag => h tag (.deeper hbelow htag)

end Dialect

theorem required_eq_ok {α : Type} {name : String} {o : Option α} {a : α} :
    required name o = .ok a ↔ o = some a := by
  cases o <;> simp [required]

end Tagged

open Tagged Tagged.Dialect

/-! ## Source trees -/

namespace Source

/-- The fields that a node is built of. -/
def Node.BuiltOf (fields : Fields Node) : Node → Prop
  | .program body => fields.nodes = some body
  | .call name params => fields.text = some name ∧ fields.nodes = some params
  | .number digits => fields.text = some digits
  | .string value => fields.text = some value

theorem builtOf_of_build {kind : Node.Kind} {fields : Fields Node} {t : Node}
    (h : sourceDialect.build kind fields = .ok t) : t.kind = kind ∧ t.BuiltOf fields := by
  cases kind with
  | program =>
    obtain ⟨body, hbody, rfl⟩ := bind_ok_eq_ok.mp h
    exact ⟨rfl, required_eq_ok.mp hbody⟩
  | call =>
    obtain ⟨name, hname, h⟩ := bind_eq_ok.mp h
    obtain ⟨params, hparams, rfl⟩ := bind_ok_eq_ok.mp h
    exact ⟨rfl, required_eq_ok.mp hname, required_eq_ok.mp hparams⟩
  | number =>
    obtain ⟨digits, hdigits, rfl⟩ := map_eq_ok.mp h
    exact ⟨rfl, required_eq_ok.mp hdigits⟩
  | string =>
    obtain ⟨value, hvalue, rfl⟩ := map_eq_ok.mp h
    exact ⟨rfl, required_eq_ok.mp hvalue⟩

theorem build_of_builtOf {fields : Fields Node} {t : Node} (h : t.BuiltOf fields) :
    sourceDialect.build t.kind fields = .ok t := by
  cases t with
  | program body => exact bind_ok_eq_ok.mpr ⟨body, required_eq_ok.mpr h, rfl⟩
  | call name params =>
    refine bind_eq_ok.mpr ⟨name, required_eq_ok.mpr h.1, ?_⟩
    exact bind_ok_eq_ok.mpr ⟨params, required_eq_ok.mpr h.2, rfl⟩
  | number digits => exact map_eq_ok.mpr ⟨digits, required_eq_ok.mpr h, rfl⟩
  | string value => exact map_eq_ok.mpr ⟨value, required_eq_ok.mpr h, rfl⟩

theorem build_eq_ok {fields : Fields Node} {t : Node} :
    sourceDialect.build (sourceDialect.kindOf t) fields = .ok t ↔ t.BuiltOf fields :=
  ⟨fun h => (builtOf_of_build h).2, build_of_builtOf⟩

theorem sourceDialect_exact : sourceDialect.Exact where
  toLawful := Tagged.sourceDialect_lawful
  distinct kind := by cases kind <;> decide
  full {kind fields t} h := by
    obtain ⟨rfl, hbuilt⟩ := builtOf_of_build h
    cases t with
    | call name params =>
      exact List.forall_mem_cons.mpr ⟨congrArg Option.isSome hbuilt.1,
        List.forall_mem_singleton.mpr (congrArg Option.isSome hbuilt.2)⟩
    | _ => exact List.forall_mem_singleton.mpr (congrArg Option.isSome hbuilt)
  kindOf_build h := (builtOf_of_build h).1

variable {values : List Json}

theorem makes_program {body : List Node} :
    sourceDialect.Makes values (.program body) ↔ ∃ items, values = [.array items] ∧
      List.Forall₂ (fun w n => sourceDialect.node true w = .ok n) items body :=
  makes_nodes rfl fun ns => build_eq_ok.trans (by simp [Node.BuiltOf])

theorem makes_call {name : String} {params : List Node} :
    sourceDialect.Makes values (.call name params) ↔ ∃ items,
      values = [.string name, .array items] ∧
      List.Forall₂ (fun w n => sourceDialect.node true w = .ok n) items params :=
  makes_text_nodes rfl fun s ns => build_eq_ok.trans (by simp [Node.BuiltOf])

theorem makes_number {digits : String} :
    sourceDialect.Makes values (.number digits) ↔ values = [.string digits] :=
  makes_text rfl fun s => build_eq_ok.trans (by simp [Node.BuiltOf])

theorem makes_string {value : String} :
    sourceDialect.Makes values (.string value) ↔ values = [.string value] :=
  makes_text rfl fun s => build_eq_ok.trans (by simp [Node.BuiltOf])

/-- What represents a tree is read as the tree. -/
theorem Represents.node_eq {v : Json} {t : Node} (h : Represents v t) (nested : Bool) :
    sourceDialect.node nested v = .ok t := by
  induction t using Node.tree_induction generalizing v nested with
  | program body ih =>
    cases h with
    | program hgives hitems =>
      refine sourceDialect_exact.node_of_makes (makes_program.mpr ⟨_, rfl, ?_⟩) hgives
      exact forall₂_imp_mem hitems fun w _ n hn hw => ih n hn hw true
  | call name params ih =>
    cases h with
    | call hgives hitems =>
      refine sourceDialect_exact.node_of_makes (makes_call.mpr ⟨_, rfl, ?_⟩) hgives
      exact forall₂_imp_mem hitems fun w _ n hn hw => ih n hn hw true
  | number digits =>
    cases h with
    | number hgives => exact sourceDialect_exact.node_of_makes (makes_number.mpr rfl) hgives
  | string value =>
    cases h with
    | string hgives => exact sourceDialect_exact.node_of_makes (makes_string.mpr rfl) hgives

/-- Where tags are strings, nothing else is read. -/
theorem represents_of_node {nested : Bool} {v : Json} {t : Node}
    (htags : sourceDialect.StringTags v) (h : sourceDialect.node nested v = .ok t) :
    Represents v t := by
  induction t using Node.tree_induction generalizing v nested with
  | program body ih =>
    obtain ⟨values, hgives, hmakes⟩ := sourceDialect_exact.makes_of_node htags.own h
    obtain ⟨items, rfl, hitems⟩ := makes_program.mp hmakes
    refine .program hgives (forall₂_imp_mem hitems fun w hw n hn hread => ?_)
    exact ih n hn (htags.below (.item hgives (.head _) (.head _) hw)) hread
  | call name params ih =>
    obtain ⟨values, hgives, hmakes⟩ := sourceDialect_exact.makes_of_node htags.own h
    obtain ⟨items, rfl, hitems⟩ := makes_call.mp hmakes
    refine .call hgives (forall₂_imp_mem hitems fun w hw n hn hread => ?_)
    exact ih n hn (htags.below (.item hgives (.tail _ (.head _)) (.tail _ (.head _)) hw)) hread
  | number digits =>
    obtain ⟨values, hgives, hmakes⟩ := sourceDialect_exact.makes_of_node htags.own h
    obtain rfl := makes_number.mp hmakes
    exact .number hgives
  | string value =>
    obtain ⟨values, hgives, hmakes⟩ := sourceDialect_exact.makes_of_node htags.own h
    obtain rfl := makes_string.mp hmakes
    exact .string hgives

end Source

/-! ## Target trees -/

namespace Target

/-- The fields that a node is built of. -/
def Node.BuiltOf (fields : Fields Node) : Node → Prop
  | .program body => fields.nodes = some body
  | .statement callee arguments => fields.child = some (.call callee arguments)
  | .call callee arguments =>
    fields.child = some (.identifier callee) ∧ fields.nodes = some arguments
  | .identifier name => fields.text = some name
  | .number digits => fields.text = some digits
  | .string value => fields.text = some value

theorem builtOf_of_build {kind : Node.Kind} {fields : Fields Node} {t : Node}
    (h : targetDialect.build kind fields = .ok t) : t.kind = kind ∧ t.BuiltOf fields := by
  cases kind with
  | program =>
    obtain ⟨body, hbody, rfl⟩ := bind_ok_eq_ok.mp h
    exact ⟨rfl, required_eq_ok.mp hbody⟩
  | statement =>
    obtain ⟨child, hchild, h⟩ := bind_eq_ok.mp h
    cases child with
    | call callee arguments =>
      obtain rfl := Except.ok.inj h
      exact ⟨rfl, required_eq_ok.mp hchild⟩
    | _ => cases h
  | call =>
    obtain ⟨child, hchild, h⟩ := bind_eq_ok.mp h
    obtain ⟨arguments, harguments, h⟩ := bind_eq_ok.mp h
    cases child with
    | identifier callee =>
      obtain rfl := Except.ok.inj h
      exact ⟨rfl, required_eq_ok.mp hchild, required_eq_ok.mp harguments⟩
    | _ => cases h
  | identifier =>
    obtain ⟨name, hname, rfl⟩ := map_eq_ok.mp h
    exact ⟨rfl, required_eq_ok.mp hname⟩
  | number =>
    obtain ⟨digits, hdigits, rfl⟩ := map_eq_ok.mp h
    exact ⟨rfl, required_eq_ok.mp hdigits⟩
  | string =>
    obtain ⟨value, hvalue, rfl⟩ := map_eq_ok.mp h
    exact ⟨rfl, required_eq_ok.mp hvalue⟩

theorem build_of_builtOf {fields : Fields Node} {t : Node} (h : t.BuiltOf fields) :
    targetDialect.build t.kind fields = .ok t := by
  cases t with
  | program body => exact bind_ok_eq_ok.mpr ⟨body, required_eq_ok.mpr h, rfl⟩
  | statement callee arguments => exact bind_eq_ok.mpr ⟨_, required_eq_ok.mpr h, rfl⟩
  | call callee arguments =>
    refine bind_eq_ok.mpr ⟨_, required_eq_ok.mpr h.1, ?_⟩
    exact bind_eq_ok.mpr ⟨arguments, required_eq_ok.mpr h.2, rfl⟩
  | identifier name => exact map_eq_ok.mpr ⟨name, required_eq_ok.mpr h, rfl⟩
  | number digits => exact map_eq_ok.mpr ⟨digits, required_eq_ok.mpr h, rfl⟩
  | string value => exact map_eq_ok.mpr ⟨value, required_eq_ok.mpr h, rfl⟩

theorem build_eq_ok {fields : Fields Node} {t : Node} :
    targetDialect.build (targetDialect.kindOf t) fields = .ok t ↔ t.BuiltOf fields :=
  ⟨fun h => (builtOf_of_build h).2, build_of_builtOf⟩

theorem targetDialect_exact : targetDialect.Exact where
  toLawful := Tagged.targetDialect_lawful
  distinct kind := by cases kind <;> decide
  full {kind fields t} h := by
    obtain ⟨rfl, hbuilt⟩ := builtOf_of_build h
    cases t with
    | call callee arguments =>
      exact List.forall_mem_cons.mpr ⟨congrArg Option.isSome hbuilt.1,
        List.forall_mem_singleton.mpr (congrArg Option.isSome hbuilt.2)⟩
    | _ => exact List.forall_mem_singleton.mpr (congrArg Option.isSome hbuilt)
  kindOf_build h := (builtOf_of_build h).1

variable {values : List Json}

theorem makes_program {body : List Node} :
    targetDialect.Makes values (.program body) ↔ ∃ items, values = [.array items] ∧
      List.Forall₂ (fun w n => targetDialect.node true w = .ok n) items body :=
  makes_nodes rfl fun ns => build_eq_ok.trans (by simp [Node.BuiltOf])

theorem makes_statement {callee : String} {arguments : List Node} :
    targetDialect.Makes values (.statement callee arguments) ↔ ∃ w, values = [w] ∧
      targetDialect.node true w = .ok (.call callee arguments) :=
  makes_child rfl fun n => by
    rw [build_eq_ok]
    simpa [Node.BuiltOf] using fun h => h ▸ rfl

theorem makes_call {callee : String} {arguments : List Node} :
    targetDialect.Makes values (.call callee arguments) ↔ ∃ w items, values = [w, .array items] ∧
      targetDialect.node true w = .ok (.identifier callee) ∧
      List.Forall₂ (fun w n => targetDialect.node true w = .ok n) items arguments :=
  makes_child_nodes rfl fun n ns => by
    rw [build_eq_ok]
    simpa [Node.BuiltOf] using fun h _ => h ▸ rfl

theorem makes_identifier {name : String} :
    targetDialect.Makes values (.identifier name) ↔ values = [.string name] :=
  makes_text rfl fun s => build_eq_ok.trans (by simp [Node.BuiltOf])

theorem makes_number {digits : String} :
    targetDialect.Makes values (.number digits) ↔ values = [.string digits] :=
  makes_text rfl fun s => build_eq_ok.trans (by simp [Node.BuiltOf])

theorem makes_string {value : String} :
    targetDialect.Makes values (.string value) ↔ values = [.string value] :=
  makes_text rfl fun s => build_eq_ok.trans (by simp [Node.BuiltOf])

theorem Represents.identifier_eq {v : Json} {name : String} (h : Represents v (.identifier name))
    (nested : Bool) : targetDialect.node nested v = .ok (.identifier name) := by
  cases h with
  | identifier hgives =>
    exact targetDialect_exact.node_of_makes (makes_identifier.mpr rfl) hgives

/-- A call is read where its arguments are. -/
theorem Represents.call_eq {v : Json} {callee : String} {arguments : List Node}
    (h : Represents v (.call callee arguments)) (nested : Bool)
    (ih : ∀ m ∈ arguments, ∀ {w}, Represents w m → targetDialect.node true w = .ok m) :
    targetDialect.node nested v = .ok (.call callee arguments) := by
  cases h with
  | call hgives hcallee hitems =>
    refine targetDialect_exact.node_of_makes
      (makes_call.mpr ⟨_, _, rfl, hcallee.identifier_eq true, ?_⟩) hgives
    exact forall₂_imp_mem hitems fun w _ m hm hw => ih m hm hw

/-- What represents a tree is read as the tree. -/
theorem Represents.node_eq {v : Json} {t : Node} (h : Represents v t) (nested : Bool) :
    targetDialect.node nested v = .ok t := by
  induction t using Node.tree_induction generalizing v nested with
  | program body ih =>
    cases h with
    | program hgives hitems =>
      refine targetDialect_exact.node_of_makes (makes_program.mpr ⟨_, rfl, ?_⟩) hgives
      exact forall₂_imp_mem hitems fun w _ m hm hw => ih m hm hw true
  | statement callee arguments ih =>
    cases h with
    | statement hgives hcall =>
      have hread := hcall.call_eq true fun m hm _ hw => ih m hm hw true
      exact targetDialect_exact.node_of_makes (makes_statement.mpr ⟨_, rfl, hread⟩) hgives
  | call callee arguments ih => exact h.call_eq nested fun m hm _ hw => ih m hm hw true
  | identifier name => exact h.identifier_eq nested
  | number digits =>
    cases h with
    | number hgives => exact targetDialect_exact.node_of_makes (makes_number.mpr rfl) hgives
  | string value =>
    cases h with
    | string hgives => exact targetDialect_exact.node_of_makes (makes_string.mpr rfl) hgives

theorem represents_identifier_of_node {nested : Bool} {v : Json} {name : String}
    (htags : targetDialect.StringTags v)
    (h : targetDialect.node nested v = .ok (.identifier name)) :
    Represents v (.identifier name) := by
  obtain ⟨values, hgives, hmakes⟩ := targetDialect_exact.makes_of_node htags.own h
  obtain rfl := makes_identifier.mp hmakes
  exact .identifier hgives

/-- What is read as a call represents the call, where that is so of its arguments. -/
theorem represents_call_of_node {nested : Bool} {v : Json} {callee : String}
    {arguments : List Node} (htags : targetDialect.StringTags v)
    (h : targetDialect.node nested v = .ok (.call callee arguments))
    (ih : ∀ m ∈ arguments, ∀ {w}, targetDialect.StringTags w →
      targetDialect.node true w = .ok m → Represents w m) :
    Represents v (.call callee arguments) := by
  obtain ⟨values, hgives, hmakes⟩ := targetDialect_exact.makes_of_node htags.own h
  obtain ⟨w, items, rfl, hcallee, hitems⟩ := makes_call.mp hmakes
  have hw := htags.below (.child hgives (.head _) (.head _))
  refine .call hgives (represents_identifier_of_node hw hcallee)
    (forall₂_imp_mem hitems fun x hx m hm hread => ih m hm ?_ hread)
  exact htags.below (.item hgives (.tail _ (.head _)) (.tail _ (.head _)) hx)

/-- Where tags are strings, nothing else is read. -/
theorem represents_of_node {nested : Bool} {v : Json} {t : Node}
    (htags : targetDialect.StringTags v) (h : targetDialect.node nested v = .ok t) :
    Represents v t := by
  induction t using Node.tree_induction generalizing v nested with
  | program body ih =>
    obtain ⟨values, hgives, hmakes⟩ := targetDialect_exact.makes_of_node htags.own h
    obtain ⟨items, rfl, hitems⟩ := makes_program.mp hmakes
    refine .program hgives (forall₂_imp_mem hitems fun w hw m hm hread => ?_)
    exact ih m hm (htags.below (.item hgives (.head _) (.head _) hw)) hread
  | statement callee arguments ih =>
    obtain ⟨values, hgives, hmakes⟩ := targetDialect_exact.makes_of_node htags.own h
    obtain ⟨w, rfl, hcall⟩ := makes_statement.mp hmakes
    have hw := htags.below (.child hgives (.head _) (.head _))
    exact .statement hgives (represents_call_of_node hw hcall fun m hm _ hx => ih m hm hx)
  | call callee arguments ih =>
    exact represents_call_of_node htags h fun m hm _ hx => ih m hm hx
  | identifier name => exact represents_identifier_of_node htags h
  | number digits =>
    obtain ⟨values, hgives, hmakes⟩ := targetDialect_exact.makes_of_node htags.own h
    obtain rfl := makes_number.mp hmakes
    exact .number hgives
  | string value =>
    obtain ⟨values, hgives, hmakes⟩ := targetDialect_exact.makes_of_node htags.own h
    obtain rfl := makes_string.mp hmakes
    exact .string hgives

end Target

/-! ## The order of members -/

open Json (Reordered)

/-- A value that gives a tag and fields gives them also in another order. -/
theorem Tagged.Gives.reordered {tag : String} {v w : Json} {fields : List (String × Json)}
    (h : Gives (.string tag) fields v) (hvw : Reordered v w) :
    ∃ values, List.Forall₂ Reordered (fields.map Prod.snd) values ∧
      Gives (.string tag) ((fields.map Prod.fst).zip values) w := by
  cases h with
  | array =>
    obtain ⟨items, rfl, hitems⟩ := hvw.array_eq
    obtain ⟨tag', values, htag, hvalues, rfl⟩ := List.forall₂_cons_left_iff.mp hitems
    obtain rfl := htag.string_eq
    have hlength := hvalues.length_eq
    rw [List.length_map] at hlength
    exact ⟨values, hvalues, .of_map_snd (List.map_snd_zip (by simp [hlength]))⟩
  | object h =>
    obtain ⟨between, members', rfl, hbetween, hperm⟩ := hvw.object_eq
    obtain ⟨all, hall, hentries⟩ := Json.entries_along hbetween hperm h
    obtain ⟨tag', values, htag, hvalues, rfl⟩ := List.forall₂_cons_left_iff.mp hall
    obtain rfl := htag.string_eq
    exact ⟨values, hvalues, .object hentries⟩

theorem Tagged.items_along {ν : Type} {R : Json → ν → Prop} {items items' : List Json}
    {ns : List ν} (h : List.Forall₂ R items ns) (hitems : List.Forall₂ Reordered items items')
    (himp : ∀ n ∈ ns, ∀ {v w}, R v n → Reordered v w → R w n) : List.Forall₂ R items' ns := by
  induction h generalizing items' with
  | nil =>
    obtain rfl := List.forall₂_nil_left_iff.mp hitems
    exact .nil
  | cons hvn _ ih =>
    obtain ⟨w, others, hvw, hothers, rfl⟩ := List.forall₂_cons_left_iff.mp hitems
    exact .cons (himp _ (by simp) hvn hvw) (ih hothers fun n hn => himp n (by simp [hn]))

theorem Tagged.Gives.reordered_text {tag name text : String} {v w : Json}
    (h : Gives (.string tag) [(name, .string text)] v) (hvw : Reordered v w) :
    Gives (.string tag) [(name, .string text)] w := by
  obtain ⟨values, hvalues, hgives⟩ := h.reordered hvw
  obtain _ | ⟨htext, _ | _⟩ := hvalues
  obtain rfl := htext.string_eq
  exact hgives

theorem Tagged.Gives.reordered_nodes {tag name : String} {items : List Json} {v w : Json}
    (h : Gives (.string tag) [(name, .array items)] v) (hvw : Reordered v w) :
    ∃ items', List.Forall₂ Reordered items items' ∧
      Gives (.string tag) [(name, .array items')] w := by
  obtain ⟨values, hvalues, hgives⟩ := h.reordered hvw
  obtain _ | ⟨hnodes, _ | _⟩ := hvalues
  obtain ⟨items', rfl, hitems⟩ := hnodes.array_eq
  exact ⟨items', hitems, hgives⟩

theorem Source.Represents.reordered {v w : Json} {t : Node} (h : Represents v t)
    (hvw : Reordered v w) : Represents w t := by
  induction t using Node.tree_induction generalizing v w with
  | program body ih =>
    cases h with
    | program hgives hitems =>
      obtain ⟨items', hitems', hgives'⟩ := hgives.reordered_nodes hvw
      exact .program hgives' (items_along hitems hitems' fun q hq _ _ hx hxy => ih q hq hx hxy)
  | call name params ih =>
    cases h with
    | call hgives hitems =>
      obtain ⟨values, hvalues, hgives'⟩ := hgives.reordered hvw
      obtain _ | ⟨hname, _ | ⟨hparams, _ | _⟩⟩ := hvalues
      obtain rfl := hname.string_eq
      obtain ⟨items', rfl, hitems'⟩ := hparams.array_eq
      exact .call hgives' (items_along hitems hitems' fun q hq _ _ hx hxy => ih q hq hx hxy)
  | number digits =>
    cases h with
    | number hgives => exact .number (hgives.reordered_text hvw)
  | string value =>
    cases h with
    | string hgives => exact .string (hgives.reordered_text hvw)

theorem Target.Represents.identifier_reordered {v w : Json} {name : String}
    (h : Represents v (.identifier name)) (hvw : Reordered v w) :
    Represents w (.identifier name) := by
  cases h with
  | identifier hgives => exact .identifier (hgives.reordered_text hvw)

theorem Target.Represents.call_reordered {v w : Json} {callee : String} {arguments : List Node}
    (h : Represents v (.call callee arguments)) (hvw : Reordered v w)
    (ih : ∀ m ∈ arguments, ∀ {x y}, Represents x m → Reordered x y → Represents y m) :
    Represents w (.call callee arguments) := by
  cases h with
  | call hgives hcallee hitems =>
    obtain ⟨values, hvalues, hgives'⟩ := hgives.reordered hvw
    obtain _ | ⟨hx, _ | ⟨harguments, _ | _⟩⟩ := hvalues
    obtain ⟨items', rfl, hitems'⟩ := harguments.array_eq
    exact .call hgives' (hcallee.identifier_reordered hx) (items_along hitems hitems' ih)

theorem Target.Represents.reordered {v w : Json} {t : Node} (h : Represents v t)
    (hvw : Reordered v w) : Represents w t := by
  induction t using Node.tree_induction generalizing v w with
  | program body ih =>
    cases h with
    | program hgives hitems =>
      obtain ⟨items', hitems', hgives'⟩ := hgives.reordered_nodes hvw
      exact .program hgives' (items_along hitems hitems' fun m hm _ _ hx hxy => ih m hm hx hxy)
  | statement callee arguments ih =>
    cases h with
    | statement hgives hcall =>
      obtain ⟨values, hvalues, hgives'⟩ := hgives.reordered hvw
      obtain _ | ⟨hx, _ | _⟩ := hvalues
      exact .statement hgives' (hcall.call_reordered hx fun m hm _ _ hy hyz => ih m hm hy hyz)
  | call callee arguments ih => exact h.call_reordered hvw fun m hm _ _ hx hxy => ih m hm hx hxy
  | identifier name => exact h.identifier_reordered hvw
  | number digits =>
    cases h with
    | number hgives => exact .number (hgives.reordered_text hvw)
  | string value =>
    cases h with
    | string hgives => exact .string (hgives.reordered_text hvw)

/-! ## Texts -/

/-- A text of a value that nests at most 127 deep, with a string at the place of each tag, is
    read as a node exactly where the value represents it. A value represents at most one tree,
    and the same one in whatever order its members stand. -/
theorem texts_read_as_represented :
    (∀ (text : String) (v : Json), Json.Spells text v → v.nesting ≤ 127 →
      (sourceDialect.StringTags v →
        ∀ t, sourceDialect.ofText none text = .ok t ↔ Source.Represents v t) ∧
      (targetDialect.StringTags v →
        ∀ t, targetDialect.ofText none text = .ok t ↔ Target.Represents v t)) ∧
    (∀ v t t', Source.Represents v t → Source.Represents v t' → t = t') ∧
    (∀ v t t', Target.Represents v t → Target.Represents v t' → t = t') ∧
    (∀ v w, Reordered v w → (∀ t, Source.Represents v t ↔ Source.Represents w t) ∧
      (∀ t, Target.Represents v t ↔ Target.Represents w t)) := by
  refine ⟨fun text v htext hdepth => ⟨fun htags t => ?_, fun htags t => ?_⟩,
    fun v t t' h h' => ?_, fun v t t' h h' => ?_, fun v w hvw => ⟨fun t => ?_, fun t => ?_⟩⟩
  · rw [ofText_eq_ok htext hdepth]
    exact ⟨Source.represents_of_node htags, fun h => h.node_eq false⟩
  · rw [ofText_eq_ok htext hdepth]
    exact ⟨Target.represents_of_node htags, fun h => h.node_eq false⟩
  · exact Except.ok.inj ((h.node_eq false).symm.trans (h'.node_eq false))
  · exact Except.ok.inj ((h.node_eq false).symm.trans (h'.node_eq false))
  · exact ⟨fun h => h.reordered hvw, fun h => h.reordered hvw.symm⟩
  · exact ⟨fun h => h.reordered hvw, fun h => h.reordered hvw.symm⟩

/-- A call with its members out of order, a foreign one among them, and a parameter that is an
    array. -/
def mixedForms : Json :=
  .object [("value", .array []), ("params", .array [.array [.string "NumberLiteral", .string "1"]]),
    ("type", .string "CallExpression"), ("name", .string "f")]

theorem stringTags_mixedForms : sourceDialect.StringTags mixedForms := by
  intro tag htag
  cases htag with
  | own htag =>
    cases htag with
    | member htag => exact ⟨"CallExpression", by simpa using htag⟩
  | deeper hbelow htag =>
    cases hbelow with
    | @child kind _ _ _ _ _ hslot => cases kind <;> simp [sourceDialect] at hslot
    | @item kind values items name hgives hentry hslot hw =>
      have htype := hgives.of_object _ (.head _)
      have hitems := hgives.of_object _ (.tail _ hentry)
      cases kind <;> simp [sourceDialect, Source.Node.Kind.name] at htype hslot
      subst hslot
      simp at hitems
      subst hitems
      obtain rfl := List.mem_singleton.mp hw
      cases htag with
      | own htag =>
        cases htag
        exact ⟨_, rfl⟩
      | deeper hbelow _ =>
        cases hbelow with
        | @child kind _ _ _ _ _ hslot => cases kind <;> simp [sourceDialect] at hslot
        | @item kind _ _ _ hgives _ hslot _ =>
          have hnumber := hgives.of_array
          cases kind <;> simp [sourceDialect, Source.Node.Kind.name] at hnumber hslot

def mixedText : String :=
  "\x7b\"value\":[],\"params\":[[\"NumberLiteral\",\"1\"]]," ++
    "\"type\":\"CallExpression\",\"name\":\"f\"\x7d"

theorem mixed_forms_represent_a_call :
    Json.Spells mixedText mixedForms ∧ sourceDialect.StringTags mixedForms ∧
      Source.Represents mixedForms (.call "f" [.number "1"]) ∧
      sourceDialect.ofText none mixedText = .ok (.call "f" [.number "1"]) := by
  have hlegible : Json.Legible mixedForms := Json.legible_object (by
    simp [Json.legible_string, Json.legible_array])
  have hspells : Json.Spells mixedText mixedForms := hlegible.spells
  have hnumber : Source.Represents (.array [.string "NumberLiteral", .string "1"]) (.number "1") :=
    .number .array
  have hcall : Source.Represents mixedForms (.call "f" [.number "1"]) :=
    .call (.object (by simp)) (.cons hnumber .nil)
  obtain ⟨hsource, -⟩ := texts_read_as_represented.1 _ _ hspells (by decide)
  exact ⟨hspells, stringTags_mixedForms, hcall, (hsource stringTags_mixedForms _).mpr hcall⟩

end CallForm
