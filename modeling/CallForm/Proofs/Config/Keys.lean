/-
  CallForm.Proofs.Config.Keys — the five keys of a configuration, and what setting one changes.

  A configuration `Holds` a value at each key if it has a table for each section and the value
  in it, wherever the value came from. The defaults hold the default of each key
  (`holds_defaults`). Setting one key, be it by a dotted name or as a field of a section,
  changes the value at that key and at no other (`Holds.setField`, `Holds.mergeEntry`), so a
  layer that sets keys and nothing else changes them one by one (`Holds.mergeLayer`).
-/

import CallForm.Config.Stack
import CallForm.Proofs.Json.Within

namespace CallForm.Config

/-! ## Values, wherever they came from -/

namespace Value

mutual

/-- The value without the names of files. -/
def bare : Value → Value
  | .atom _ a => .atom none a
  | .table _ entries => .table none (bareEntries entries)
  | .array _ items => .array none (bareItems items)

def bareEntries : List (String × Value) → List (String × Value)
  | [] => []
  | (name, v) :: entries => (name, bare v) :: bareEntries entries

def bareItems : List Value → List Value
  | [] => []
  | v :: items => bare v :: bareItems items

end

/-- No table: a table at a key would set names below the key, not the key. -/
def IsLeaf : Value → Prop
  | .table _ _ => False
  | .atom _ _ => True
  | .array _ _ => True

instance : DecidablePred IsLeaf
  | .table _ _ => instDecidableFalse
  | .atom _ _ | .array _ _ => instDecidableTrue

end Value

/-! ## Keys -/

inductive Key where
  | unknownCharacters
  | maxDepth
  | stringLiterals
  | statementSeparator
  | argumentSeparator
  deriving DecidableEq, Repr

namespace Key

def all : List Key :=
  [.unknownCharacters, .maxDepth, .stringLiterals, .statementSeparator, .argumentSeparator]

/-- The name of the section that the key belongs to. -/
def table : Key → String
  | .unknownCharacters => "lexer"
  | .maxDepth => "parser"
  | .stringLiterals | .statementSeparator | .argumentSeparator => "codegen"

/-- The name of the key in its section. -/
def field : Key → String
  | .unknownCharacters => "unknown_characters"
  | .maxDepth => "max_depth"
  | .stringLiterals => "string_literals"
  | .statementSeparator => "statement_separator"
  | .argumentSeparator => "argument_separator"

/-- The key as it is written. -/
def text (k : Key) : String := k.table ++ "." ++ k.field

def path (k : Key) : KeyPath := ⟨k.table, [.field k.field]⟩

def default : Key → Value
  | .unknownCharacters => defaultEntry "skip"
  | .maxDepth => .atom none (.integer defaultMaxDepth)
  | .stringLiterals => defaultEntry "reject"
  | .statementSeparator => defaultEntry "\n"
  | .argumentSeparator => defaultEntry ", "

/-- The key that two names mean, in any case. -/
def ofNames? (table field : String) : Option Key :=
  all.find? fun k => k.table == Text.lower table && k.field == Text.lower field

theorem eq_of_names {j k : Key} (ht : j.table = k.table) (hf : j.field = k.field) : j = k := by
  revert ht hf
  cases j <;> cases k <;> decide

theorem eq_of_path {j k : Key} (h : j.path = k.path) : j = k := by
  obtain ⟨htable, hsteps⟩ := KeyPath.mk.inj h
  simp only [List.cons.injEq, Step.field.injEq, and_true] at hsteps
  exact eq_of_names htable hsteps

theorem lower_table (k : Key) : Text.lower k.table = k.table := by
  cases k <;> decide

theorem lower_field (k : Key) : Text.lower k.field = k.field := by
  cases k <;> decide

theorem ofText_text (k : Key) : KeyPath.ofText k.text = .ok k.path := by
  cases k <;> rfl

theorem names_of_ofNames? {table field : String} {k : Key} (h : ofNames? table field = some k) :
    Text.lower table = k.table ∧ Text.lower field = k.field := by
  have hk := List.find?_some h
  simp only [Bool.and_eq_true, beq_iff_eq] at hk
  exact ⟨hk.1.symm, hk.2.symm⟩

end Key

/-! ## What a configuration holds -/

/-- The value at a key, if its section is a table that has it. -/
def valueAt? (root : Table) (k : Key) : Option Value :=
  match root.lookup k.table with
  | some (.table _ entries) => entries.lookup k.field
  | _ => none

/-- At each key the configuration has the value, wherever it came from. -/
def Holds (root : Table) (w : Key → Value) : Prop :=
  ∀ k, ∃ v, valueAt? root k = some v ∧ v.bare = w k

/-- The values at the keys after one of them was set. -/
def assign (w : Key → Value) (change : Key × Value) : Key → Value := fun k =>
  if k = change.1 then change.2 else w k

theorem holds_defaults : Holds defaults Key.default := by
  intro k
  cases k <;> exact ⟨_, rfl, rfl⟩

variable {root : Table} {w : Key → Value}

theorem Holds.congr (h : Holds root w) {w' : Key → Value} (hw : ∀ k, w k = w' k) :
    Holds root w' := by
  rw [← funext hw]
  exact h

theorem Holds.exists_table (h : Holds root w) (k : Key) :
    ∃ origin entries v, root.lookup k.table = some (.table origin entries) ∧
      entries.lookup k.field = some v ∧ v.bare = w k := by
  obtain ⟨v, hv, hbare⟩ := h k
  unfold valueAt? at hv
  split at hv
  · rename_i origin entries hlookup
    exact ⟨origin, entries, v, hlookup, hv, hbare⟩
  · cases hv

theorem valueAt?_put (root : Table) (name : String) (origin : Option String) (entries : Table)
    (k : Key) :
    valueAt? (root.put name (.table origin entries)) k =
      if k.table = name then entries.lookup k.field else valueAt? root k := by
  rw [valueAt?, Table.lookup_put]
  by_cases hk : k.table = name
  · simp [hk]
  · simp [hk, valueAt?]

/-- Setting a leaf puts it there. -/
theorem setName_of_leaf {v : Value} (h : v.IsLeaf) (name : String) (entries : Table) :
    setName name v entries = entries.put (Text.lower name) v := by
  cases v with
  | table origin incoming => exact h.elim
  | atom origin a | array origin items =>
    rw [setName]
    exact nofun

/-! ## One key -/

/-- A field of a section is set. -/
theorem Holds.setField {k : Key} {origin : Option String} {entries : Table} {name : String}
    {v : Value} (h : Holds (root.put k.table (.table origin entries)) w)
    (hname : Text.lower name = k.field) (hv : v.IsLeaf) :
    Holds (root.put k.table (.table origin (setName name v entries))) (assign w (k, v.bare)) := by
  intro j
  obtain ⟨u, hu, hbare⟩ := h j
  rw [valueAt?_put] at hu
  rw [valueAt?_put, setName_of_leaf hv, Table.lookup_put, hname]
  by_cases hj : j = k
  · subst hj
    exact ⟨v, by simp, by simp [assign]⟩
  · refine ⟨u, ?_, by simp [assign, hj, hbare]⟩
    by_cases ht : j.table = k.table
    · have hf : j.field ≠ k.field := fun hf => hj (Key.eq_of_names ht hf)
      rw [if_pos ht] at hu
      rw [if_pos ht, if_neg hf, hu]
    · rw [if_neg ht] at hu
      rw [if_neg ht, hu]

/-- Putting back the table that is there changes nothing. -/
theorem Holds.put_table (h : Holds root w) {name : String} {origin : Option String}
    {entries : Table} (hroot : root.lookup name = some (.table origin entries)) :
    Holds (root.put name (.table origin entries)) w := by
  intro k
  obtain ⟨v, hv, hbare⟩ := h k
  refine ⟨v, ?_, hbare⟩
  rw [valueAt?_put]
  by_cases hk : k.table = name
  · rw [if_pos hk, ← hv, valueAt?, hk, hroot]
  · rw [if_neg hk, hv]

/-- A key is set by its dotted name. -/
theorem Holds.setPath (h : Holds root w) {k : Key} {table name : String} {v : Value}
    (htable : Text.lower table = k.table) (hname : Text.lower name = k.field) (hv : v.IsLeaf) :
    Holds (KeyPath.set ⟨table, [.field name]⟩ v root) (assign w (k, v.bare)) := by
  obtain ⟨origin, entries, u, hroot, -, -⟩ := h.exists_table k
  have hset : KeyPath.set ⟨table, [.field name]⟩ v root =
      root.put k.table (.table origin (setName name v entries)) := by
    simp [KeyPath.set, changeAt, htable, hroot, tableOrigin, entriesOf]
  rw [hset]
  exact (h.put_table hroot).setField hname hv

/-! ## Layers -/

/-- The value of a leaf, wherever it came from. -/
def leaf? (v : Value) : Option Value := if v.IsLeaf then some v.bare else none

/-- The key that a field of a section sets, and its value; nothing if it sets anything else. -/
def assignment? (table : String) (field : String × Value) : Option (Key × Value) := do
  let k ← Key.ofNames? table field.1
  let v ← leaf? field.2
  some (k, v)

/-- The keys that a top-level entry of a layer sets, in order: the fields of a section, or one
    dotted key. Nothing if the entry sets anything else. -/
def entryAssigned? (entry : String × Value) : Option (List (Key × Value)) :=
  match KeyPath.ofText entry.1, entry.2 with
  | .ok ⟨table, []⟩, .table _ fields => fields.mapM (assignment? table)
  | .ok ⟨table, [.field name]⟩, v => (assignment? table (name, v)).map fun change => [change]
  | _, _ => none

/-- The keys that the entries of a layer set, in order, if they set nothing else. -/
def assigned? (entries : Table) : Option (List (Key × Value)) :=
  (entries.mapM entryAssigned?).map List.flatten

theorem assignment?_eq_some {table : String} {field : String × Value} {change : Key × Value}
    (h : assignment? table field = some change) :
    Text.lower table = change.1.table ∧ Text.lower field.1 = change.1.field ∧
      field.2.IsLeaf ∧ change.2 = field.2.bare := by
  obtain ⟨k, hk, hrest⟩ := Option.bind_eq_some_iff.mp h
  obtain ⟨v, hv, hchange⟩ := Option.bind_eq_some_iff.mp hrest
  obtain ⟨htable, hfield⟩ := Key.names_of_ofNames? hk
  cases hchange
  unfold leaf? at hv
  split at hv
  · rename_i hleaf
    cases hv
    exact ⟨htable, hfield, hleaf, rfl⟩
  · cases hv

/-- Fields of a section are set one after the other. -/
theorem Holds.setNames {table : String} {origin : Option String} {fields : Table} :
    ∀ {entries : Table} {w : Key → Value} {changes : List (Key × Value)},
      Holds (root.put (Text.lower table) (.table origin entries)) w →
      fields.mapM (assignment? table) = some changes →
      Holds (root.put (Text.lower table) (.table origin (setNames fields entries)))
        (changes.foldl assign w) := by
  induction fields with
  | nil =>
    intro entries w changes h hchanges
    cases hchanges
    rw [Config.setNames]
    exact h
  | cons field fields ih =>
    intro entries w changes h hchanges
    rw [List.mapM_cons] at hchanges
    obtain ⟨change, hchange, hrest⟩ := Option.bind_eq_some_iff.mp hchanges
    obtain ⟨others, hothers, hcons⟩ := Option.bind_eq_some_iff.mp hrest
    cases hcons
    obtain ⟨htable, hfield, hleaf, hvalue⟩ := assignment?_eq_some hchange
    rw [htable] at h
    have hstep := h.setField hfield hleaf
    rw [← hvalue, ← htable] at hstep
    rw [Config.setNames, List.foldl_cons]
    exact ih hstep hothers

/-- A section with no fields sets nothing. -/
theorem Holds.setName_empty (h : Holds root w) (name : String) (origin : Option String) :
    Holds (setName name (.table origin []) root) w := by
  rw [setName]
  cases hroot : root.lookup (Text.lower name) with
  | some old => simpa using h
  | none =>
    intro k
    obtain ⟨v, hv, hbare⟩ := h k
    have hk : k.table ≠ Text.lower name := by
      intro hk
      rw [valueAt?, hk, hroot] at hv
      cases hv
    refine ⟨v, ?_, hbare⟩
    simp [valueAt?_put, hk, hv]

theorem Holds.setSection (h : Holds root w) {table : String} {origin : Option String}
    {fields : Table} {changes : List (Key × Value)}
    (hchanges : fields.mapM (assignment? table) = some changes) :
    Holds (setName table (.table origin fields) root) (changes.foldl assign w) := by
  cases fields with
  | nil =>
    cases hchanges
    exact h.setName_empty table origin
  | cons field fields =>
    have hfirst := hchanges
    rw [List.mapM_cons] at hfirst
    obtain ⟨change, hchange, -⟩ := Option.bind_eq_some_iff.mp hfirst
    have htable := (assignment?_eq_some hchange).1
    obtain ⟨here, entries, u, hroot, -, -⟩ := h.exists_table change.1
    rw [← htable] at hroot
    have hset : setName table (.table origin (field :: fields)) root =
        root.put (Text.lower table) (.table here (Config.setNames (field :: fields) entries)) := by
      rw [setName]
      simp [hroot, tableOrigin, entriesOf]
    rw [hset]
    exact (h.put_table hroot).setNames hchanges

theorem Holds.mergeEntry (h : Holds root w) {entry : String × Value}
    {changes : List (Key × Value)} (hchanges : entryAssigned? entry = some changes) :
    Holds (mergeEntry root entry) (changes.foldl assign w) := by
  obtain ⟨name, v⟩ := entry
  unfold entryAssigned? at hchanges
  split at hchanges
  · rename_i table origin fields hpath hvalue
    obtain rfl : v = .table origin fields := hvalue
    have hmerge : Config.mergeEntry root (name, .table origin fields) =
        setName table (.table origin fields) root := by
      simp only [Config.mergeEntry, hpath]
      rfl
    rw [hmerge]
    exact h.setSection hchanges
  · rename_i table field hpath
    obtain ⟨change, hchange, hsingle⟩ := Option.map_eq_some_iff.mp hchanges
    subst hsingle
    obtain ⟨htable, hfield, hleaf, hvalue⟩ := assignment?_eq_some hchange
    have hstep := h.setPath htable hfield hleaf
    rw [← hvalue] at hstep
    simp only [Config.mergeEntry, hpath]
    exact hstep
  · cases hchanges

/-- A layer that sets keys and nothing else changes their values, one after the other. -/
theorem Holds.mergeLayer {entries : Table} : ∀ {root : Table} {w : Key → Value}
    {changes : List (Key × Value)}, Holds root w → assigned? entries = some changes →
      Holds (mergeLayer root entries) (changes.foldl assign w) := by
  induction entries with
  | nil =>
    intro root w changes h hchanges
    cases hchanges
    exact h
  | cons entry entries ih =>
    intro root w changes h hchanges
    obtain ⟨parts, hparts, hflatten⟩ := Option.map_eq_some_iff.mp hchanges
    rw [List.mapM_cons] at hparts
    obtain ⟨first, hfirst, hrest⟩ := Option.bind_eq_some_iff.mp hparts
    obtain ⟨others, hothers, hcons⟩ := Option.bind_eq_some_iff.mp hrest
    cases hcons
    subst hflatten
    have hlater : assigned? entries = some others.flatten := by
      rw [assigned?, hothers]
      rfl
    rw [List.flatten_cons, List.foldl_append]
    exact ih (h.mergeEntry hfirst) hlater

end CallForm.Config
