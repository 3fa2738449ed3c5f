/-
  CallForm.Proofs.Tagged.RoundTrip — trees and tokens read back from their JSON text.

  Both dialects write every tree as they read it (`writes_json`), and the reader of tokens
  yields each token for its text, alone or in a list. So texts written for trees and tokens are
  read back, up to the depth that texts may nest (`trees_and_tokens_read_back`).
-/

import CallForm.Proofs.Source.Shape
import CallForm.Proofs.Tagged.Written
import CallForm.Proofs.Target.Shape

namespace CallForm

open Tagged (sourceDialect targetDialect)
open Tagged.Dialect (Writes fillMembers_text fillMembers_nodes fillMembers_child writes_text
  writes_nodes)

/-! ## Source trees -/

theorem Tagged.sourceDialect_lawful : sourceDialect.Lawful where
  tag nested kind := by cases kind <;> rfl
  untagged kind := by cases kind <;> rfl

theorem Source.Node.jsons_eq_map (nodes : List Node) : jsons nodes = nodes.map json := by
  induction nodes with
  | nil => rfl
  | cons node nodes ih => rw [jsons, ih, List.map_cons]

theorem Source.Node.writes_json (q : Node) : sourceDialect.Writes q.json q := by
  induction q using tree_induction with
  | program body ih =>
    rw [json, jsons_eq_map]
    exact writes_nodes (d := sourceDialect) Tagged.sourceDialect_lawful .program (by decide) rfl
      ih rfl
  | call name params ih =>
    rw [json, jsons_eq_map]
    refine .tagged (d := sourceDialect) .call { text := some name, nodes := some params }
      (by simp) ?_ ?_ rfl
    · simp [Json.legible_string, Writes.legible_array ih]
    · rw [fillMembers_text _ _ rfl rfl,
        fillMembers_nodes _ _ rfl rfl (Writes.nodes_eq Tagged.sourceDialect_lawful ih)]
      rfl
  | number digits => exact writes_text (d := sourceDialect) .number (by decide) rfl rfl
  | string value => exact writes_text (d := sourceDialect) .string (by decide) rfl rfl

/-! ## Target trees -/

theorem Tagged.targetDialect_lawful : targetDialect.Lawful where
  tag nested kind := by cases kind <;> rfl
  untagged kind := by cases kind <;> rfl

namespace Target

theorem Node.jsons_eq_map (nodes : List Node) : jsons nodes = nodes.map json := by
  induction nodes with
  | nil => rfl
  | cons node nodes ih => rw [jsons, ih, List.map_cons]

theorem writes_identifierJson (name : String) :
    targetDialect.Writes (identifierJson name) (.identifier name) :=
  writes_text (d := targetDialect) .identifier (by decide) rfl rfl

theorem writes_callJson {arguments : List Node}
    (h : ∀ m ∈ arguments, targetDialect.Writes m.json m) (callee : String) :
    targetDialect.Writes (callJson callee (Node.jsons arguments)) (.call callee arguments) := by
  have hcallee := writes_identifierJson callee
  rw [callJson, Node.jsons_eq_map]
  refine .tagged (d := targetDialect) .call
    { child := some (.identifier callee), nodes := some arguments } (by simp) ?_ ?_ rfl
  · simp [hcallee.legible, Writes.legible_array h]
  · rw [fillMembers_child _ _ rfl rfl (hcallee.node_eq Tagged.targetDialect_lawful),
      fillMembers_nodes _ _ rfl rfl (Writes.nodes_eq Tagged.targetDialect_lawful h)]
    rfl

theorem Node.writes_json (m : Node) : targetDialect.Writes m.json m := by
  induction m using tree_induction with
  | program body ih =>
    rw [json, jsons_eq_map]
    exact writes_nodes (d := targetDialect) Tagged.targetDialect_lawful .program (by decide) rfl
      ih rfl
  | statement callee arguments ih =>
    have hcall := writes_callJson ih callee
    rw [json]
    refine .tagged (d := targetDialect) .statement { child := some (.call callee arguments) }
      (by simp) ?_ ?_ rfl
    · simpa using hcall.legible
    · rw [fillMembers_child _ _ rfl rfl (hcall.node_eq Tagged.targetDialect_lawful)]
      rfl
  | call callee arguments ih => exact writes_callJson ih callee
  | identifier name => exact writes_identifierJson name
  | number digits => exact writes_text (d := targetDialect) .number (by decide) rfl rfl
  | string value => exact writes_text (d := targetDialect) .string (by decide) rfl rfl

end Target

/-! ## Tokens -/

namespace Tagged

open Json (Blank Layout Yields quoted skipBlanks skipBlanks_cons spelled)

theorem readKind_text (kind : TokenKind) {bs : List Char} (hbs : Blank bs) (rest : List Char) :
    readKind (bs ++ ((quoted kind.text).toList ++ rest)) = .ok (kind, rest) := by
  have hname : (Json.readString (kind.text.toList.flatMap Json.escape ++ '"' :: rest)).mapError
      ReadError.fault = .ok (kind.text, rest) := by
    rw [Json.readString_escaped]
    rfl
  have hkind : (TokenKind.ofName kind.text).mapError ReadError.data = .ok kind := by
    cases kind <;> rfl
  rw [readKind, hbs.skip, Json.quoted_append, skipBlanks_cons rfl]
  simp [hname, hkind, bind, Except.bind]

theorem yields_token (kind : TokenKind) {content : String} {t : Token}
    (ht : kind.token (.string content) = .ok t) (l : Layout) (level : Nat) :
    Yields readToken (spelled l level (.object [(kind.text, .string content)])) (.ok t) := by
  refine ⟨fun {bs} hbs rest => ?_, '\x7b', _, rfl, rfl, by decide, by decide⟩
  have htext : spelled l level (.object [(kind.text, .string content)]) ++ rest =
      '\x7b' :: (l.line (level + 1) ++ ((quoted kind.text).toList ++
        ':' :: (l.gap ++ (spelled l (level + 1) (.string content) ++
          (l.line level ++ '\x7d' :: rest))))) := by
    simp [spelled, Json.spelledMembers, Layout.between, Layout.listed]
  have hkind := readKind_text kind (l.line_blank (level + 1)) (':' :: (l.gap ++
    (spelled l (level + 1) (.string content) ++ (l.line level ++ '\x7d' :: rest))))
  have hcolon : ∀ cs, skipBlanks (':' :: cs) = ':' :: cs := skipBlanks_cons rfl
  have hcontent : (Json.readShallow (l.gap ++ (spelled l (level + 1) (.string content) ++
      (l.line level ++ '\x7d' :: rest)))).mapError ReadError.fault =
        .ok (.string content, l.line level ++ '\x7d' :: rest) := by
    rw [Json.readShallow_string _ _ _ l.gap_blank]
    rfl
  have htoken : (kind.token (.string content)).mapError ReadError.data = .ok t := by
    rw [ht]
    rfl
  have hclose := l.skip_line level (c := '\x7d') rfl rest
  rw [readToken, hbs.skip, htext, skipBlanks_cons rfl]
  simp [hkind, hcolon, hcontent, htoken, hclose, Except.map, bind, Except.bind]

theorem yields_json (t : Token) (l : Layout) (level : Nat) :
    Yields readToken (spelled l level t.json) (.ok t) := by
  cases t with
  | paren c => exact yields_token .paren (by simp [TokenKind.token]) l level
  | name text => exact yields_token .name rfl l level
  | number digits => exact yields_token .number rfl l level

theorem readTokens_jsons (ts : List Token) (l : Layout) (level : Nat) :
    readTokens (spelled l level (.array (ts.map Token.json))) = .ok (ts, []) := by
  have hlist := Json.readList_between ReadError.fault l level (.inl rfl) ts
    (fun t _ => yields_json t l (level + 1)) []
  have hall : (ts.mapM fun t => (Except.ok t : Except ReadError Token)) = .ok ts := by
    have hpure := List.mapM_pure (m := Except ReadError) (l := ts) (f := id)
    rw [List.map_id] at hpure
    exact hpure
  rw [spelled, Json.spelledItems_eq_map, List.map_map, readTokens, skipBlanks_cons rfl]
  simpa [Function.comp_def, hall, Except.map] using hlist

theorem tokenOfText_json {t : Token} {text : String}
    (h : text = t.json.compact ∨ text = t.json.pretty) : tokenOfText text = .ok t := by
  obtain ⟨l, hl⟩ := Json.exists_layout h
  have hread := (yields_json t l 0).read Blank.nil []
  rw [List.nil_append, List.append_nil] at hread
  rw [tokenOfText, hl, hread]
  rfl

theorem tokensOfText_jsons {ts : List Token} {text : String}
    (h : text = (Json.array (ts.map Token.json)).compact ∨
      text = (Json.array (ts.map Token.json)).pretty) : tokensOfText text = .ok ts := by
  obtain ⟨l, hl⟩ := Json.exists_layout h
  rw [tokensOfText, hl, readTokens_jsons]
  rfl

/-! ## Round trips -/

/-- What is written as JSON, compact or pretty, is read back. A tree is read as itself, as a
    node or as its own kind, if its arrays and objects nest at most 127 deep; deeper texts are
    malformed. Tokens and lists of tokens are read as themselves. -/
theorem trees_and_tokens_read_back :
    (∀ (q : Source.Node) (root : Option Source.Node.Kind) (text : String),
      root = none ∨ root = some q.kind → text = q.json.compact ∨ text = q.json.pretty →
        sourceDialect.ofText root text =
          if q.json.nesting ≤ 127 then .ok q else .error (.fault .malformed)) ∧
    (∀ (m : Target.Node) (root : Option Target.Node.Kind) (text : String),
      root = none ∨ root = some m.kind → text = m.json.compact ∨ text = m.json.pretty →
        targetDialect.ofText root text =
          if m.json.nesting ≤ 127 then .ok m else .error (.fault .malformed)) ∧
    (∀ (t : Token) (text : String), text = t.json.compact ∨ text = t.json.pretty →
      tokenOfText text = .ok t) ∧
    (∀ (ts : List Token) (text : String),
      text = (Json.array (ts.map Token.json)).compact ∨
        text = (Json.array (ts.map Token.json)).pretty →
      tokensOfText text = .ok ts) := by
  refine ⟨fun q root text hroot htext => ?_, fun m root text hroot htext => ?_,
    fun t text htext => tokenOfText_json htext, fun ts text htext => tokensOfText_jsons htext⟩
  · exact q.writes_json.ofText_eq sourceDialect_lawful hroot htext
  · exact m.writes_json.ofText_eq targetDialect_lawful hroot htext

/-- A string with a quote and a line feed in it; a number in 64 calls, which is too deep; a quote
    that stands for a parenthesis. -/
theorem a_call_of_a_string_reads_back :
    sourceDialect.ofText (some .call) (Source.Node.call "say" [.string "\"\n\x01é"]).json.pretty =
      .ok (.call "say" [.string "\"\n\x01é"]) ∧
    sourceDialect.ofText none
        (Nat.repeat (fun q => .call "f" [q]) 64 (Source.Node.number "1")).json.compact =
      .error (.fault .malformed) ∧
    targetDialect.ofText (some .statement)
        (Target.Node.statement "say" [.string "7"]).json.compact =
      .ok (.statement "say" [.string "7"]) ∧
    tokenOfText (Token.paren '"').json.compact = .ok (.paren '"') ∧
    tokensOfText (Json.array ([.paren '(', .name "say"].map Token.json)).pretty =
      .ok [.paren '(', .name "say"] := by
  obtain ⟨hsource, htarget, htoken, htokens⟩ := trees_and_tokens_read_back
  refine ⟨?_, ?_, ?_, htoken _ _ (.inl rfl), htokens _ _ (.inr rfl)⟩
  · exact (hsource _ (some .call) _ (.inr rfl) (.inr rfl)).trans (if_pos (by decide))
  · exact (hsource _ none _ (.inl rfl) (.inl rfl)).trans (if_neg (by decide +kernel))
  · exact (htarget _ (some .statement) _ (.inr rfl) (.inl rfl)).trans (if_pos (by decide))

end Tagged

end CallForm
