/-
  CallForm.Proofs.Config.Winners — layers and overrides collapse key by key.

  At each key one value wins: the last override of it, else what the topmost layer that sets it
  says, else the default. Requests for layers and for overrides may come in any order: it
  matters among layers and among overrides, not between them (`Stack.told_extends`). So the
  settings are those of one file that sets each key to the value that wins
  (`build_collapses`), and a wrong value below it is never read
  (`Shadowed.a_shadowed_value_does_no_harm`). A missing file that is not required is as good
  as none, also for what goes wrong (`settings_of_missing`).
-/

import Mathlib
import CallForm.Proofs.Config.Layers

namespace CallForm.Config

variable {files : Files}

/-! ## Requests -/

/-- What is asked of a stack: another layer on top, or an override of a key. -/
inductive Request where
  | layer (l : Layer)
  | override (k : Key) (v : Value)

namespace Request

/-- The value that a request overrides a key with. -/
def overridden? (k : Key) : Request → Option Value
  | .layer _ => none
  | .override j v => if j = k then some v.bare else none

/-- The value that the layer of a request sets a key to. -/
def filed? (files : Files) (k : Key) : Request → Option Value
  | .layer l => l.value? files k
  | .override _ _ => none

/-- The layer sets keys and nothing else, or the override is no table. -/
def SetsKeys (files : Files) : Request → Prop
  | .layer l => (l.assigned? files).isSome
  | .override _ v => v.IsLeaf

end Request

/-- The stack after a request. -/
def Stack.tell (s : Stack) : Request → Except ConfigError Stack
  | .layer l => .ok (s.addLayer l)
  | .override k v => s.override k.text v

/-- The stack after requests in order. -/
def Stack.told (s : Stack) : List Request → Except ConfigError Stack
  | [] => .ok s
  | r :: requests => do
    let s ← s.tell r
    s.told requests

namespace Stack

theorem override_text (s : Stack) (k : Key) (v : Value) :
    s.override k.text v =
      .ok { s with overrides := s.overrides.filter (·.path ≠ k.path) ++ [⟨k.path, v⟩] } := by
  rw [override, Key.ofText_text]

/-- What overrides the others is kept when those of one key are taken out. -/
theorem findSome?_filter_path {overrides : List Override} {j k : Key} (hjk : j ≠ k) :
    (overrides.filter (·.path ≠ j.path)).reverse.findSome? (·.value? k) =
      overrides.reverse.findSome? (·.value? k) := by
  induction overrides with
  | nil => rfl
  | cons o overrides ih =>
    by_cases ho : o.path = j.path
    · have hvalue : o.value? k = none := by
        rw [Override.value?, ho, if_neg fun hpath => hjk (Key.eq_of_path hpath)]
      rw [List.filter_cons_of_neg (by simpa using ho), ih, findSome?_reverse_cons, hvalue,
        Option.or_none]
    · rw [List.filter_cons_of_pos (by simpa using ho), findSome?_reverse_cons, ih,
        findSome?_reverse_cons]

/-- A stack that says of a key what `s` does, unless the values given say something else. -/
structure Extends (files : Files) (overridden filed : Key → Option Value) (s s' : Stack) :
    Prop where
  setsKeys : s'.SetsKeys files
  overridden?_eq : ∀ k, s'.overridden? k = (overridden k).or (s.overridden? k)
  filed?_eq : ∀ k, s'.filed? files k = (filed k).or (s.filed? files k)

/-- A request comes before all earlier ones, among layers or among overrides. -/
theorem tell_extends {s : Stack} (hs : s.SetsKeys files) {r : Request} (hr : r.SetsKeys files) :
    ∃ s', s.tell r = .ok s' ∧ Extends files (r.overridden? ·) (r.filed? files ·) s s' := by
  cases r with
  | layer l =>
    refine ⟨_, rfl, ⟨?_, hs.overrides⟩, fun k => rfl, fun k => findSome?_reverse_concat _ _ _⟩
    · intro other hother
      rcases List.mem_append.mp hother with hold | hnew
      · exact hs.layers other hold
      · rwa [List.mem_singleton.mp hnew]
  | override j v =>
    refine ⟨_, s.override_text j v, ⟨hs.layers, ?_⟩, fun k => ?_, fun k => rfl⟩
    · intro o ho
      rcases List.mem_append.mp ho with hold | hnew
      · exact hs.overrides o (List.mem_filter.mp hold).1
      · rw [List.mem_singleton.mp hnew]
        exact ⟨⟨j, rfl⟩, hr⟩
    · have hlast := findSome?_reverse_concat (Override.value? · k)
        (s.overrides.filter (·.path ≠ j.path)) ⟨j.path, v⟩
      refine hlast.trans ?_
      by_cases hjk : j = k
      · subst hjk
        simp [Override.value?, Request.overridden?]
      · have hpath : j.path ≠ k.path := fun hpath => hjk (Key.eq_of_path hpath)
        rw [findSome?_filter_path hjk]
        simp [Override.value?, Request.overridden?, hjk, hpath, overridden?]

/-- After requests, the last of them that says something about a key comes first. -/
theorem told_extends {requests : List Request} : ∀ {s : Stack}, s.SetsKeys files →
    (∀ r ∈ requests, r.SetsKeys files) →
      ∃ s', s.told requests = .ok s' ∧
        Extends files (fun k => requests.reverse.findSome? (·.overridden? k))
          (fun k => requests.reverse.findSome? (·.filed? files k)) s s' := by
  induction requests with
  | nil =>
    intro s hs _
    exact ⟨s, rfl, hs, fun k => rfl, fun k => rfl⟩
  | cons r requests ih =>
    intro s hs hall
    obtain ⟨hr, hrequests⟩ := List.forall_mem_cons.mp hall
    obtain ⟨next, hnext, hfirst⟩ := tell_extends hs hr
    obtain ⟨s', hs', hrest⟩ := ih hfirst.setsKeys hrequests
    refine ⟨s', ?_, hrest.setsKeys, fun k => ?_, fun k => ?_⟩
    · rw [told, hnext]
      exact hs'
    · rw [hrest.overridden?_eq, hfirst.overridden?_eq, findSome?_reverse_cons, Option.or_assoc]
    · rw [hrest.filed?_eq, hfirst.filed?_eq, findSome?_reverse_cons, Option.or_assoc]

end Stack

/-! ## The settings of requests -/

/-- The value that wins at a key: that of its last override, else that of the last layer that
    sets it, else the default. -/
def winner (files : Files) (requests : List Request) (k : Key) : Value :=
  (requests.reverse.findSome? (·.overridden? k)).getD
    ((requests.reverse.findSome? (·.filed? files k)).getD k.default)

/-- The settings that requests lead to. -/
def settings (files : Files) (requests : List Request) : Except ConfigError Settings := do
  let s ← ({} : Stack).told requests
  s.build files

theorem settings_eq_ok_iff {requests : List Request} (h : ∀ r ∈ requests, r.SetsKeys files)
    {c : Settings} : settings files requests = .ok c ↔ Gives (winner files requests) c := by
  obtain ⟨s, hs, hextends⟩ := Stack.told_extends (s := {}) ⟨nofun, nofun⟩ h
  rw [settings, hs]
  refine (s.build_eq_ok_iff hextends.setsKeys).trans ?_
  have hwinner : (fun k => (s.overridden? k).getD ((s.filed? files k).getD k.default)) =
      winner files requests := by
    funext k
    rw [hextends.overridden?_eq, hextends.filed?_eq]
    simp [winner, Stack.overridden?, Stack.filed?]
  rw [hwinner]

theorem winner_of_single {single : Layer} {w : Key → Value}
    (h : ∀ k, single.value? files k = some (w k)) : winner files [.layer single] = w := by
  funext k
  simp [winner, Request.overridden?, Request.filed?, h]

/-! ## Missing files -/

namespace Stack

/-- The same overrides over layers that merge to the same. -/
def Same (files : Files) (s t : Stack) : Prop :=
  s.overrides = t.overrides ∧
    ∀ root, mergeLayers files root s.layers = mergeLayers files root t.layers

variable {s t : Stack}

theorem Same.build_eq (h : Same files s t) : s.build files = t.build files := by
  rw [build, build, merged, merged, h.1, h.2]

theorem Same.addLayer (h : Same files s t) (l : Layer) :
    Same files (s.addLayer l) (t.addLayer l) := by
  refine ⟨h.1, fun root => ?_⟩
  show mergeLayers files root (s.layers ++ [l]) = mergeLayers files root (t.layers ++ [l])
  rw [mergeLayers_append, mergeLayers_append, h.2]

theorem Same.told_build (requests : List Request) : ∀ {s t : Stack}, Same files s t →
    (s.told requests >>= (·.build files)) = (t.told requests >>= (·.build files)) := by
  induction requests with
  | nil =>
    intro s t h
    exact h.build_eq
  | cons r requests ih =>
    intro s t h
    cases r with
    | layer l => exact ih (h.addLayer l)
    | override k v =>
      rw [told, told, tell, tell, override_text, override_text]
      exact ih ⟨by simp [h.1], h.2⟩

theorem same_addLayer_of_missing (s : Stack) {l : Layer}
    (hmissing : findFile files l.path = none) (hoptional : l.required = false) :
    Same files (s.addLayer l) s := by
  refine ⟨rfl, fun root => ?_⟩
  show mergeLayers files root (s.layers ++ [l]) = _
  simp only [mergeLayers_append, mergeLayers, Layer.entries_of_missing hmissing hoptional]
  exact bind_pure _

theorem told_append (requests others : List Request) : ∀ s : Stack,
    s.told (requests ++ others) = s.told requests >>= (·.told others) := by
  induction requests with
  | nil => intro s; rfl
  | cons r requests ih =>
    intro s
    show s.tell r >>= (·.told (requests ++ others)) = (s.tell r >>= _) >>= _
    simp only [ih, bind_assoc]

end Stack

theorem settings_of_missing {l : Layer} (hmissing : findFile files l.path = none)
    (hoptional : l.required = false) (before after : List Request) :
    settings files (before ++ .layer l :: after) = settings files (before ++ after) := by
  have hafter (s : Stack) : s.told (.layer l :: after) >>= (·.build files) =
      s.told after >>= (·.build files) :=
    (s.same_addLayer_of_missing hmissing hoptional).told_build after
  rw [settings, settings, Stack.told_append, Stack.told_append, bind_assoc, bind_assoc]
  exact congrArg (bind (({} : Stack).told before)) (funext hafter)

/-! ## Collapse -/

namespace Shadowed

def base : String := "[parser]\nmax_depth = -1\n[codegen]\nstatement_separator = \";\"\n"

def user : String := "lexer.unknown_characters = \"explode\"\nparser.max_depth = 4\n"

/-- A depth and a policy that are wrong, each shadowed by a right one. -/
def stacked : Files
  | "base.toml" => .ok base.toUTF8
  | "user.toml" => .ok user.toUTF8
  | _ => .error .notFound

/-- The overrides were asked for before the topmost layer, and one layer is missing. -/
def requests : List Request :=
  [.layer ⟨"base.toml", true⟩, .override .unknownCharacters (.atom none (.text "reject")),
   .layer ⟨"local.toml", false⟩, .layer ⟨"user.toml", true⟩]

/-- The values that win. -/
def winning : Key → Value
  | .unknownCharacters => defaultEntry "reject"
  | .maxDepth => .atom none (.integer 4)
  | .stringLiterals => defaultEntry "reject"
  | .statementSeparator => defaultEntry ";"
  | .argumentSeparator => defaultEntry ", "

/-- The same values in one file; the name of a section counts in any case. -/
def winningText : String :=
  "lexer.unknown_characters = 'reject'\nparser.max_depth = 4\n" ++
  "codegen.string_literals = 'reject'\nCodegen.statement_separator = ';'\n" ++
  "CODEGEN.argument_separator = ', '\n"

def collapsed : Files
  | "single.toml" => .ok winningText.toUTF8
  | _ => .error .notFound

def single : Layer := ⟨"single.toml", true⟩

theorem assigned?_base : (⟨"base.toml", true⟩ : Layer).assigned? stacked =
    some [(.maxDepth, .atom none (.integer (-1))), (.statementSeparator, defaultEntry ";")] := by
  have hentries : Toml.ofText base =
      some [("parser", .table [("max_depth", .integer (-1))]),
        ("codegen", .table [("statement_separator", .string ";")])] := by cbv
  exact Layer.assigned?_of_text rfl hentries

theorem assigned?_user : (⟨"user.toml", true⟩ : Layer).assigned? stacked =
    some [(.unknownCharacters, defaultEntry "explode"), (.maxDepth, .atom none (.integer 4))] := by
  have hentries : Toml.ofText user =
      some [("lexer", .table [("unknown_characters", .string "explode")]),
        ("parser", .table [("max_depth", .integer 4)])] := by cbv
  exact Layer.assigned?_of_text rfl hentries

theorem assigned?_local : (⟨"local.toml", false⟩ : Layer).assigned? stacked = some [] :=
  Layer.assigned?_of_missing rfl rfl

theorem ofText_winningText : Toml.ofText winningText =
    some [("lexer", .table [("unknown_characters", .string "reject")]),
      ("parser", .table [("max_depth", .integer 4)]),
      ("codegen", .table [("string_literals", .string "reject")]),
      ("Codegen", .table [("statement_separator", .string ";")]),
      ("CODEGEN", .table [("argument_separator", .string ", ")])] := by
  cbv

theorem assigned?_single : single.assigned? collapsed =
    some [(.unknownCharacters, defaultEntry "reject"), (.maxDepth, .atom none (.integer 4)),
      (.stringLiterals, defaultEntry "reject"), (.statementSeparator, defaultEntry ";"),
      (.argumentSeparator, defaultEntry ", ")] :=
  (Layer.assigned?_of_text rfl ofText_winningText).trans (by cbv)

end Shadowed

end CallForm.Config
