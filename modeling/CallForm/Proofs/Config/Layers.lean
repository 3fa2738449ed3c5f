/-
  CallForm.Proofs.Config.Layers — what a stack of layers and overrides holds at each key.

  The topmost layer that sets a key says what the files hold there, and the defaults hold what
  no layer sets (`mergeLayers_holds`). Overrides lie above all layers, the last of a key above
  the others (`overrides_hold`). So the settings of a stack are read from one value a key
  (`Stack.build_eq_ok_iff`). A file that may be missing, and is, sets nothing
  (`Layer.assigned?_of_missing`).
-/

import CallForm.Proofs.Config.Readable

namespace CallForm.Config

/-! ## The last value -/

theorem findSome?_reverse_cons {α β : Type} (f : α → Option β) (x : α) (xs : List α) :
    (x :: xs).reverse.findSome? f = (xs.reverse.findSome? f).or (f x) := by
  cases h : xs.reverse.findSome? f <;> simp [List.findSome?_append, h]

theorem findSome?_reverse_concat {α β : Type} (f : α → Option β) (xs : List α) (x : α) :
    (xs ++ [x]).reverse.findSome? f = (f x).or (xs.reverse.findSome? f) := by
  cases h : f x <;> simp [h]

/-- What the first of a list says is the default for what the others say. -/
theorem getD_findSome?_reverse_cons {α β : Type} (f : α → Option β) (x : α) (xs : List α) (b : β) :
    (xs.reverse.findSome? f).getD ((f x).getD b) = ((x :: xs).reverse.findSome? f).getD b := by
  rw [findSome?_reverse_cons]
  cases xs.reverse.findSome? f <;> rfl

/-- The value that changes give to a key in the end, if any of them changes it. -/
def last? (k : Key) (changes : List (Key × Value)) : Option Value :=
  changes.reverse.findSome? fun change => if change.1 = k then some change.2 else none

theorem foldl_assign (changes : List (Key × Value)) (k : Key) :
    ∀ w, changes.foldl assign w k = (last? k changes).getD (w k) := by
  induction changes with
  | nil => intro w; rfl
  | cons change changes ih =>
    intro w
    have hlast : last? k (change :: changes) =
        (last? k changes).or (if change.1 = k then some change.2 else none) :=
      findSome?_reverse_cons _ _ _
    rw [List.foldl_cons, ih, hlast]
    cases last? k changes with
    | some v => rfl
    | none => by_cases hk : k = change.1 <;> simp [assign, hk, eq_comm]

/-! ## Layers -/

theorem decodeUtf8_toUTF8 (text : String) : decodeUtf8 text.toUTF8 = .ok text := by
  rw [decodeUtf8, String.fromUTF8?, String.toUTF8_eq_toByteArray, dif_pos text.isValidUTF8]
  rfl

namespace Layer

variable (files : Files)

/-- The keys that a layer sets, in order, if it can be read and sets nothing else. -/
def assigned? (l : Layer) : Option (List (Key × Value)) :=
  (l.entries files).toOption.bind Config.assigned?

/-- The value that a layer sets a key to. -/
def value? (l : Layer) (k : Key) : Option Value := (l.assigned? files).bind (last? k)

variable {files}

theorem entries_of_missing {l : Layer} (hmissing : findFile files l.path = none)
    (hoptional : l.required = false) : l.entries files = .ok [] := by
  rw [entries, hmissing]
  simp [hoptional]

theorem assigned?_of_missing {l : Layer} (hmissing : findFile files l.path = none)
    (hoptional : l.required = false) : l.assigned? files = some [] := by
  rw [assigned?, entries_of_missing hmissing hoptional]
  rfl

/-- A file with a text that is TOML sets the keys that its entries set. -/
theorem assigned?_of_text {l : Layer} {text : String} {entries : List (String × Toml.Value)}
    (hbytes : files l.path = .ok text.toUTF8) (hentries : Toml.ofText text = some entries) :
    l.assigned? files = Config.assigned? (Value.ofTomlEntries (shownPath l.path) entries) := by
  have hfind : findFile files l.path = some l.path := by
    simp [findFile, Files.isFile, hbytes, Except.toOption]
  have htext : files.readText l.path = .ok text := by
    rw [Files.readText, hbytes]
    exact decodeUtf8_toUTF8 text
  have hlayer : l.entries files = .ok (Value.ofTomlEntries (shownPath l.path) entries) := by
    simp [Layer.entries, hfind, htext, hentries]
  rw [assigned?, hlayer]
  rfl

theorem merge_holds {l : Layer} (h : (l.assigned? files).isSome) {root : Table} {w : Key → Value}
    (hroot : Holds root w) :
    ∃ entries, l.entries files = .ok entries ∧
      Holds (mergeLayer root entries) fun k => (l.value? files k).getD (w k) := by
  obtain ⟨changes, hchanges⟩ := Option.isSome_iff_exists.mp h
  obtain ⟨entries, hentries, hassigned⟩ := Option.bind_eq_some_iff.mp hchanges
  refine ⟨entries, ?_, ?_⟩
  · cases hread : l.entries files with
    | error e => rw [hread] at hentries; cases hentries
    | ok table => rw [hread] at hentries; cases hentries; rfl
  · refine (hroot.mergeLayer hassigned).congr fun k => ?_
    rw [foldl_assign, value?, hchanges]
    rfl

end Layer

variable {files : Files}

theorem mergeLayers_holds {layers : List Layer} : ∀ {root : Table} {w : Key → Value},
    Holds root w → (∀ l ∈ layers, (l.assigned? files).isSome) →
      ∃ merged, mergeLayers files root layers = .ok merged ∧
        Holds merged fun k => (layers.reverse.findSome? (·.value? files k)).getD (w k) := by
  induction layers with
  | nil =>
    intro root w hroot _
    exact ⟨root, rfl, hroot⟩
  | cons l layers ih =>
    intro root w hroot hall
    obtain ⟨hl, hlayers⟩ := List.forall_mem_cons.mp hall
    obtain ⟨entries, hentries, hstep⟩ := l.merge_holds hl hroot
    obtain ⟨merged, hmerged, hholds⟩ := ih hstep hlayers
    refine ⟨merged, ?_, ?_⟩
    · rw [mergeLayers, hentries]
      exact hmerged
    · exact hholds.congr fun k => getD_findSome?_reverse_cons _ _ _ _

theorem mergeLayers_append (layers others : List Layer) : ∀ root,
    mergeLayers files root (layers ++ others) =
      mergeLayers files root layers >>= fun root => mergeLayers files root others := by
  induction layers with
  | nil => intro root; rfl
  | cons l layers ih =>
    intro root
    show (l.entries files >>= fun entries => mergeLayers files _ (layers ++ others)) = _
    cases hentries : l.entries files with
    | error e => simp [mergeLayers, hentries, bind, Except.bind]
    | ok entries =>
      rw [mergeLayers, hentries]
      exact ih _

/-! ## Overrides -/

namespace Override

/-- The value that an override sets a key to. -/
def value? (o : Override) (k : Key) : Option Value :=
  if o.path = k.path then some o.value.bare else none

/-- An override of one of the keys. -/
def SetsKey (o : Override) : Prop := (∃ k : Key, o.path = k.path) ∧ o.value.IsLeaf

theorem set_holds {o : Override} (h : o.SetsKey) {root : Table} {w : Key → Value}
    (hroot : Holds root w) :
    Holds (o.path.set o.value root) fun k => (o.value? k).getD (w k) := by
  obtain ⟨⟨k, hk⟩, hleaf⟩ := h
  have hset := hroot.setPath k.lower_table k.lower_field hleaf
  rw [hk]
  refine hset.congr fun j => ?_
  by_cases hj : j = k
  · subst hj
    simp [assign, value?, hk]
  · have hpath : k.path ≠ j.path := fun hpath => hj (Key.eq_of_path hpath).symm
    simp [assign, value?, hk, hj, hpath]

end Override

theorem overrides_hold {overrides : List Override} : ∀ {root : Table} {w : Key → Value},
    Holds root w → (∀ o ∈ overrides, o.SetsKey) →
      Holds (overrides.foldl (fun root o => o.path.set o.value root) root)
        fun k => (overrides.reverse.findSome? (·.value? k)).getD (w k) := by
  induction overrides with
  | nil =>
    intro root w hroot _
    exact hroot
  | cons o overrides ih =>
    intro root w hroot hall
    obtain ⟨ho, hoverrides⟩ := List.forall_mem_cons.mp hall
    have hrest := ih (o.set_holds ho hroot) hoverrides
    exact hrest.congr fun k => getD_findSome?_reverse_cons _ _ _ _

/-! ## Stacks -/

namespace Stack

/-- The last value that overrides set a key to. -/
def overridden? (s : Stack) (k : Key) : Option Value := s.overrides.reverse.findSome? (·.value? k)

/-- The value of the topmost layer that sets a key. -/
def filed? (files : Files) (s : Stack) (k : Key) : Option Value :=
  s.layers.reverse.findSome? (·.value? files k)

/-- Every layer sets keys and nothing else, and so does every override. -/
structure SetsKeys (files : Files) (s : Stack) : Prop where
  layers : ∀ l ∈ s.layers, (l.assigned? files).isSome
  overrides : ∀ o ∈ s.overrides, o.SetsKey

theorem merged_holds {s : Stack} (h : s.SetsKeys files) :
    ∃ root, s.merged files = .ok root ∧
      Holds root fun k => (s.overridden? k).getD ((s.filed? files k).getD k.default) := by
  obtain ⟨root, hroot, hfiled⟩ := mergeLayers_holds holds_defaults h.layers
  refine ⟨_, ?_, overrides_hold hfiled h.overrides⟩
  rw [merged, hroot]
  rfl

/-- The settings of a stack are those of the values that win. -/
theorem build_eq_ok_iff {s : Stack} (h : s.SetsKeys files) {c : Settings} :
    s.build files = .ok c ↔
      Gives (fun k => (s.overridden? k).getD ((s.filed? files k).getD k.default)) c := by
  obtain ⟨root, hroot, hholds⟩ := merged_holds h
  rw [build, hroot]
  exact decode_eq_ok_iff hholds

end Stack

end CallForm.Config
