/-
  CallForm.Proofs.Json.Order — values that differ in the order of members only.

  Members of objects may be put into any order, at any depth; the items of arrays stay where they
  are. Such values are `Reordered`, which goes both ways (`reordered_comm`).
-/

import Mathlib.Data.List.Forall2
import Mathlib.Data.List.Perm.Basic
import CallForm.Proofs.Json.Layout

namespace CallForm

theorem forall₂_imp_mem {α β : Type} {R S : α → β → Prop} {xs : List α} {ys : List β}
    (h : List.Forall₂ R xs ys) (himp : ∀ x ∈ xs, ∀ y ∈ ys, R x y → S x y) :
    List.Forall₂ S xs ys := by
  induction h with
  | nil => exact .nil
  | cons hxy _ ih =>
    exact .cons (himp _ (by simp) _ (by simp) hxy)
      (ih fun x hx y hy => himp x (by simp [hx]) y (by simp [hy]))

namespace Json

/-- The same value, except for the order of members. -/
inductive Reordered : Json → Json → Prop
  | same (v : Json) : Reordered v v
  | array {items items' : List Json} : List.Forall₂ Reordered items items' →
      Reordered (.array items) (.array items')
  | object {members between members' : List (String × Json)} :
      members.map Prod.fst = between.map Prod.fst →
      List.Forall₂ Reordered (members.map Prod.snd) (between.map Prod.snd) →
      between.Perm members' → Reordered (.object members) (.object members')

/-- Two lists of members that have the same names in the same places, and related values. -/
abbrev MembersAlong (R : Json → Json → Prop) (ms ms' : List (String × Json)) : Prop :=
  List.Forall₂ (fun m m' => m.1 = m'.1 ∧ R m.2 m'.2) ms ms'

theorem membersAlong_iff {R : Json → Json → Prop} {ms ms' : List (String × Json)} :
    MembersAlong R ms ms' ↔ ms.map Prod.fst = ms'.map Prod.fst ∧
      List.Forall₂ R (ms.map Prod.snd) (ms'.map Prod.snd) := by
  induction ms generalizing ms' with
  | nil => cases ms' <;> simp
  | cons m ms ih => cases ms' <;> simp [ih, and_assoc, and_left_comm]

namespace Reordered

theorem of_members {members between members' : List (String × Json)}
    (h : MembersAlong Reordered members between) (hperm : between.Perm members') :
    Reordered (.object members) (.object members') :=
  .object (membersAlong_iff.mp h).1 (membersAlong_iff.mp h).2 hperm

theorem symm {v w : Json} (h : Reordered v w) : Reordered w v := by
  induction v using value_induction generalizing w with
  | array items ih =>
    cases h with
    | same => exact .same _
    | array h => exact .array (forall₂_imp_mem h.flip fun _ _ v hv hvw => ih v hv hvw)
  | object members ih =>
    cases h with
    | same => exact .same _
    | @object _ between members' hnames hvalues hperm =>
      have hback : MembersAlong Reordered between members :=
        forall₂_imp_mem (membersAlong_iff.mpr ⟨hnames, hvalues⟩).flip fun _ _ m hm hmm' =>
          ⟨hmm'.1.symm, ih m hm hmm'.2⟩
      -- the order is changed first, and the values after that
      obtain ⟨between', hmembers', hperm'⟩ := List.perm_comp_forall₂ hperm.symm hback
      exact of_members hmembers' hperm'
  | _ => cases h; exact .same _

theorem string_eq {s : String} {w : Json} (h : Reordered (.string s) w) : w = .string s := by
  cases h
  rfl

theorem array_eq {items : List Json} {w : Json} (h : Reordered (.array items) w) :
    ∃ items', w = .array items' ∧ List.Forall₂ Reordered items items' := by
  cases h with
  | same => exact ⟨items, rfl, List.forall₂_same.mpr fun v _ => .same v⟩
  | array h => exact ⟨_, rfl, h⟩

theorem object_eq {members : List (String × Json)} {w : Json} (h : Reordered (.object members) w) :
    ∃ between members', w = .object members' ∧ MembersAlong Reordered members between ∧
      between.Perm members' := by
  cases h with
  | same =>
    exact ⟨members, members, rfl, List.forall₂_same.mpr fun m _ => ⟨rfl, .same m.2⟩, .refl _⟩
  | object hnames hvalues hperm =>
    exact ⟨_, _, rfl, membersAlong_iff.mpr ⟨hnames, hvalues⟩, hperm⟩

end Reordered

/-- The only member of a name stays the only one, wherever it goes. -/
theorem filter_along {R : Json → Json → Prop} {members between members' : List (String × Json)}
    (h : MembersAlong R members between) (hperm : between.Perm members') {m : String × Json}
    (hm : members.filter (·.1 = m.1) = [m]) :
    ∃ v, R m.2 v ∧ members'.filter (·.1 = m.1) = [(m.1, v)] := by
  have hfilter := List.rel_filter (p := fun x => decide (x.1 = m.1))
    (q := fun x => decide (x.1 = m.1)) (fun x y hxy => by simp [hxy.1]) h
  rw [hm] at hfilter
  obtain ⟨m', others, hmm', hnil, hbetween⟩ := List.forall₂_cons_left_iff.mp hfilter
  obtain rfl := List.forall₂_nil_left_iff.mp hnil
  have hmembers' := (hperm.filter fun x => decide (x.1 = m.1)).symm
  rw [hbetween, List.perm_singleton] at hmembers'
  obtain ⟨name, v⟩ := m'
  obtain rfl : m.1 = name := hmm'.1
  exact ⟨v, hmm'.2, hmembers'⟩

/-- The same of a list of members, each the only one of its name. -/
theorem entries_along {members between members' : List (String × Json)}
    (hbetween : MembersAlong Reordered members between) (hperm : between.Perm members')
    {entries : List (String × Json)} (h : ∀ m ∈ entries, members.filter (·.1 = m.1) = [m]) :
    ∃ values, List.Forall₂ Reordered (entries.map Prod.snd) values ∧
      ∀ m ∈ (entries.map Prod.fst).zip values, members'.filter (·.1 = m.1) = [m] := by
  induction entries with
  | nil => exact ⟨[], .nil, nofun⟩
  | cons m entries ih =>
    obtain ⟨hm, hentries⟩ := List.forall_mem_cons.mp h
    obtain ⟨x, hx, hm'⟩ := filter_along hbetween hperm hm
    obtain ⟨values, hvalues, hentries'⟩ := ih hentries
    exact ⟨x :: values, .cons hx hvalues, List.forall_mem_cons.mpr ⟨hm', hentries'⟩⟩

end Json

end CallForm
