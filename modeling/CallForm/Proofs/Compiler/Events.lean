/-
  CallForm.Proofs.Compiler.Events — what a compilation reports on its way.

  The strays of a text are its characters outside the alphabet, each with its bytes
  (`straying_scan`). A compilation reports them first, then the calls that the reader closes, and
  then the calls of the tree as conversion enters them; a failure ends the report where it
  happens (`compile_events`).
-/

import CallForm.Proofs.Compiler
import CallForm.Proofs.Source.ClosedCalls
import CallForm.Proofs.Token.Spans

namespace CallForm

open Source (Node closedCalls Progress)

/-! ## Strays -/

/-- What the strays of a text have to be: all its characters outside the alphabet, with the
    bytes they take, from left to right. -/
structure Straying (source : String) (xs : List Stray) : Prop where
  ordered : xs.Pairwise fun x y => x.stop ≤ y.start
  mem_iff : ∀ x, x ∈ xs ↔ ¬ InAlphabet x.char ∧ ∃ before after,
    source = before ++ String.singleton x.char ++ after ∧ x.start = before.utf8ByteSize ∧
      x.stop = (before ++ String.singleton x.char).utf8ByteSize

namespace Stray

theorem mem_scan {cs : List Char} {x : Stray} : ∀ {start : Nat}, x ∈ Stray.scan start cs ↔
    isStray x.char = true ∧ ∃ before after, cs = before ++ x.char :: after ∧
      x.start = start + width before ∧ x.stop = x.start + x.char.utf8Size := by
  induction cs with
  | nil => simp [Stray.scan]
  | cons c cs ih =>
    intro start
    have hmem : x ∈ Stray.scan start (c :: cs) ↔
        (isStray c = true ∧ x = ⟨c, start, start + c.utf8Size⟩) ∨
          x ∈ Stray.scan (start + c.utf8Size) cs := by
      cases hc : isStray c <;> simp [Stray.scan, hc]
    rw [hmem, ih]
    constructor
    · rintro (⟨hc, rfl⟩ | ⟨hx, before, after, rfl, hstart, hstop⟩)
      · exact ⟨hc, [], cs, rfl, rfl, rfl⟩
      · refine ⟨hx, c :: before, after, rfl, ?_, hstop⟩
        rw [hstart, width_cons, Nat.add_assoc]
    · rintro ⟨hx, before, after, hcs, hstart, hstop⟩
      cases before with
      | nil =>
        obtain ⟨rfl, rfl⟩ := List.cons.inj hcs
        left
        obtain ⟨c, first, last⟩ := x
        obtain rfl : first = start := hstart
        obtain rfl : last = first + c.utf8Size := hstop
        exact ⟨hx, rfl⟩
      | cons d before =>
        obtain ⟨rfl, rfl⟩ := List.cons.inj hcs
        right
        refine ⟨hx, before, after, rfl, ?_, hstop⟩
        rw [hstart, width_cons, Nat.add_assoc]

theorem ordered_scan (cs : List Char) :
    ∀ start, (Stray.scan start cs).Pairwise fun x y => x.stop ≤ y.start := by
  induction cs with
  | nil => exact fun start => .nil
  | cons c cs ih =>
    intro start
    have hlater := ih (start + c.utf8Size)
    cases hc : isStray c with
    | false => simpa [Stray.scan, hc] using hlater
    | true =>
      have hfirst : ∀ y ∈ Stray.scan (start + c.utf8Size) cs, start + c.utf8Size ≤ y.start := by
        intro y hy
        obtain ⟨-, before, after, -, hstart, -⟩ := mem_scan.mp hy
        omega
      simpa [Stray.scan, hc] using ⟨hfirst, hlater⟩

end Stray

theorem straying_scan (source : String) : Straying source (Stray.scan 0 source.toList) := by
  refine ⟨Stray.ordered_scan _ 0, fun x => ?_⟩
  rw [Stray.mem_scan, isStray_eq_true_iff]
  refine and_congr_right fun _ => ?_
  constructor
  · rintro ⟨before, after, hsource, hstart, hstop⟩
    refine ⟨String.ofList before, String.ofList after, ?_, ?_, ?_⟩
    · rw [← String.toList_inj]
      simpa using hsource
    · simpa [utf8ByteSize_eq_width] using hstart
    · rw [hstop, hstart]
      simp [utf8ByteSize_eq_width, width_append]
  · rintro ⟨before, after, rfl, hstart, hstop⟩
    refine ⟨before.toList, after.toList, by simp, ?_, ?_⟩
    · rw [hstart, utf8ByteSize_eq_width, Nat.zero_add]
    · rw [hstop, hstart, String.utf8ByteSize_append, String.utf8ByteSize_singleton]

/-! ## Calls that are entered -/

def Event.entered (call : String × Nat) : Event := .enteringCall call.1 call.2

namespace Source.Node

theorem entriesAll_eq_of {qs : List Node}
    (h : ∀ q ∈ qs, q.entries = (q.nodes.filterMap call?).map Event.entered) :
    entriesAll qs = ((nodesAll qs).filterMap call?).map Event.entered := by
  induction qs with
  | nil => rfl
  | cons q qs ih =>
    obtain ⟨hq, hqs⟩ := List.forall_mem_cons.mp h
    rw [entriesAll, nodesAll, hq, ih hqs, List.filterMap_append, List.map_append]

theorem entries_eq (q : Node) : q.entries = (q.nodes.filterMap call?).map Event.entered := by
  induction q using tree_induction with
  | program body ih => simp [entries, nodes, entriesAll_eq_of ih, call?, List.filterMap_cons]
  | call name params ih =>
    simp [entries, nodes, entriesAll_eq_of ih, call?, Event.entered]
  | number digits | string value => rfl

theorem entriesAll_eq (qs : List Node) :
    entriesAll qs = ((nodesAll qs).filterMap call?).map Event.entered :=
  entriesAll_eq_of fun q _ => entries_eq q

end Source.Node

/-- The calls of a program, each before those in it. -/
def Source.Program.calls (p : Source.Program) : List (String × Nat) := p.below.filterMap Node.call?

/-- The calls of a program, each behind those in it. -/
def Source.Program.callsClosed (p : Source.Program) : List (String × Nat) :=
  (Node.postorderAll p.body).filterMap Node.call?

theorem Source.Program.callsClosed_perm (p : Source.Program) : p.callsClosed.Perm p.calls :=
  (Node.postorderAll_perm p.body).filterMap Node.call?

/-! ## Phases -/

variable {s : Settings} {source : String}

theorem lex_of_admits {policy : StrayPolicy} (h : Admits policy source) :
    lex policy source = ⟨(Stray.scan 0 source.toList).map Stray.skipped ++
      [.tokenized (tokens source).length policy], .ok (tokens source)⟩ := by
  rw [lex, lexemes_of_admits h, tokens, List.length_map]

theorem lex_of_firstStray {c : Char} (h : FirstStray source c) :
    lex .reject source = ⟨[], .error (.unrecognized c)⟩ := by
  rw [lex, lexemes, firstStray_iff.mp h]
  rfl

theorem events_compile_of_firstStray {c : Char} (hpolicy : s.strays = .reject)
    (h : FirstStray source c) : (s.compile source).events = [] := by
  have htokens : s.tokens source = ⟨[], .error (.lex (.unrecognized c))⟩ := by
    rw [Settings.tokens, hpolicy, lex_of_firstStray h]
    rfl
  rw [Settings.compile, Settings.convert, Settings.parse, htokens, Logged.bind_of_error rfl,
    Logged.bind_of_error rfl, Logged.bind_of_error rfl]

theorem tokens_of_admits (h : Admits s.strays source) :
    s.tokens source = ⟨(lex s.strays source).events, .ok (tokens source)⟩ := by
  rw [Settings.tokens, lex_of_admits h]
  rfl

theorem parse_of_admits (h : Admits s.strays source) :
    s.parse source = ⟨(lex s.strays source).events ++
      (Source.parse s.maxDepth (tokens source)).events,
      (Source.parse s.maxDepth (tokens source)).result.mapError .parse⟩ := by
  rw [Settings.parse, tokens_of_admits h, Logged.bind_of_ok rfl]
  rfl

theorem events_compile_of_parse_error (hadmits : Admits s.strays source) {e : Source.ParseError}
    (h : (Source.parse s.maxDepth (tokens source)).result = .error e) :
    (s.compile source).events =
      (lex s.strays source).events ++ (Source.parse s.maxDepth (tokens source)).events := by
  rw [Settings.compile, Settings.convert, parse_of_admits hadmits, h, Logged.bind_of_error rfl,
    Logged.bind_of_error rfl]

theorem convert_of_parse (hadmits : Admits s.strays source) {p : Source.Program}
    {target : Target.Program}
    (h : (Source.parse s.maxDepth (tokens source)).result = .ok p)
    (hconvert : (Conversion.convert p).result = .ok target) :
    s.convert source = ⟨(lex s.strays source).events ++
      (Source.parse s.maxDepth (tokens source)).events ++ (Conversion.convert p).events,
      .ok target⟩ := by
  rw [Settings.convert, parse_of_admits hadmits, h, Logged.bind_of_ok (a := p) rfl]
  simp [hconvert, Except.mapError]

theorem events_compile_of_convert {events : List Event} {target : Target.Program}
    (h : s.convert source = ⟨events, .ok target⟩) {code : String}
    (hcode : (s.compile source).result = .ok code) :
    (s.compile source).events = events ++ [.compiled source.utf8ByteSize code.utf8ByteSize] := by
  rw [Settings.compile, h, Logged.bind_of_ok rfl] at hcode ⊢
  cases htext : target.code s.style with
  | error e =>
    rw [htext] at hcode
    cases hcode
  | ok text =>
    rw [htext] at hcode
    obtain rfl : text = code := Except.ok.inj hcode
    rfl

/-- Behind the parser nothing fails, and all phases report. -/
theorem events_compile_of_parse (hadmits : Admits s.strays source) {p : Source.Program}
    (h : (Source.parse s.maxDepth (tokens source)).result = .ok p) {code : String}
    (hcode : (s.compile source).result = .ok code) :
    (s.compile source).events = (lex s.strays source).events ++
      (p.callsClosed.map Event.closed ++ [.parsed (tokens source).length p.body.length]) ++
      (p.calls.map Event.entered ++ [.transformed p.body.length]) ++
      [.compiled source.utf8ByteSize code.utf8ByteSize] := by
  obtain ⟨hbody, -⟩ := Source.readAll_eq_ok_iff.mp (Source.result_parse_eq_ok.mp h)
  obtain ⟨hkinds, -⟩ := Source.expressions_iff.mp hbody
  have hunnested : ∀ m ∈ p.below, m.kind ≠ .program := by
    intro m hm
    rcases hkinds m hm with hk | hk <;> simp [hk]
  have hconvert := Conversion.convert_eq hunnested
  have hphases := convert_of_parse hadmits h (congrArg Logged.result hconvert)
  rw [events_compile_of_convert hphases hcode, hconvert, Node.entriesAll_eq,
    Source.events_parse_of_ok h]
  rfl

/-! ## Compilations -/

/-- An event without its details. -/
def Event.headline (e : Event) : Level × String := (e.level, e.message)

theorem headlines_of {α : Type} {f : α → Event} {headline : Level × String}
    (h : ∀ a, (f a).headline = headline) (xs : List α) :
    (xs.map f).map Event.headline = List.replicate xs.length headline := by
  rw [List.map_map, List.eq_replicate_iff]
  refine ⟨by simp, fun line hline => ?_⟩
  obtain ⟨a, -, rfl⟩ := List.mem_map.mp hline
  exact h a

theorem skipped_headline (x : Stray) :
    x.skipped.headline = (.trace, "skipping unknown character") := rfl

theorem closed_headline (call : String × Nat) :
    (Event.closed call).headline = (.trace, "closed call") := rfl

theorem entered_headline (call : String × Nat) :
    (Event.entered call).headline = (.trace, "entering call") := rfl

/-- Of `(f #(g 1) (2` the call of `g` is closed before the parser fails at the `2`. -/
example : (({} : Settings).compile "(f #(g 1) (2").events =
    [.skipped '#' 3 4, .tokenized 8 .skip, .closedCall "g" 1] := by cbv

end CallForm
