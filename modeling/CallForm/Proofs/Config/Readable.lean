/-
  CallForm.Proofs.Config.Readable — settings are read from the values at the five keys alone.

  Whether a value can be read, and as what, does not depend on its key or its file
  (`Decoder.Blind`): these show in errors only. So a configuration gives settings exactly if
  the values it holds do (`decode_eq_ok_iff`).
-/

import CallForm.Proofs.Config.Keys

namespace CallForm.Config

/-! ## Decoders -/

/-- A value is read as the same, or not at all, whatever its key and wherever it came from. -/
def Decoder.Blind {α : Type} (decode : Decoder α) : Prop :=
  ∀ key v a, decode key v = .ok a ↔ decode "" v.bare = .ok a

theorem natural_blind : Decoder.Blind natural := by
  intro key v n
  cases v with
  | table origin entries => simp [natural, Value.bare]
  | array origin items => simp [natural, Value.bare]
  | atom origin a =>
    cases a with
    | nil => simp [natural, Value.bare]
    | bool b => simp [natural, Value.bare]
    | float x => simp [natural, Value.bare]
    | integer i => by_cases hi : 0 ≤ i <;> simp [natural, Value.bare, hi]
    | text s =>
      simp only [natural, Value.bare]
      cases (wordNumber? s).orElse fun _ => digitsNumber? s <;> simp

theorem text_blind : Decoder.Blind text := by
  intro key v s
  cases v with
  | table origin entries => simp [text, Value.bare]
  | array origin items => simp [text, Value.bare]
  | atom origin a => cases a <;> simp [text, Value.bare]

theorem variant_blind {α : Type} (enum : String) (values : List (String × α)) :
    Decoder.Blind (variant enum values) := by
  intro key v a
  cases v with
  | array origin items => simp [variant, Value.bare]
  | atom origin b => cases b <;> simp [variant, Value.bare]
  | table origin entries =>
    rcases entries with _ | ⟨⟨name, u⟩, _ | ⟨other, others⟩⟩ <;>
      simp [variant, Value.bare, Value.bareEntries]

theorem strayPolicy_blind : Decoder.Blind strayPolicy := variant_blind _ _

theorem stringPolicy_blind : Decoder.Blind stringPolicy := variant_blind _ _

/-! ## Sections -/

variable {root : Table} {w : Key → Value}

theorem fields_of_lookup {s : Section} {origin : Option String} {entries : Table}
    (h : root.lookup s.key = some (.table origin entries)) :
    s.fields root = .ok (.named entries) := by
  rw [Section.fields, h]

/-- A field that is there is read by its decoder before anything else is done. -/
theorem read?_bind_eq_ok_iff {α β : Type} (s : Section) {decode : Decoder α}
    (hblind : decode.Blind) {entries : Table} {name : String} {v : Value}
    (h : entries.lookup name = some v) {place : Nat} {f : Option α → Except ConfigError β} {b : β} :
    s.read? (.named entries) place name decode >>= f = .ok b ↔
      ∃ a, decode "" v.bare = .ok a ∧ f (some a) = .ok b := by
  rw [Section.read?, h, bind_eq_ok]
  simp only [map_eq_ok]
  constructor
  · rintro ⟨-, ⟨a, ha, rfl⟩, hb⟩
    exact ⟨a, (hblind _ v a).mp ha, hb⟩
  · rintro ⟨a, ha, hb⟩
    exact ⟨some a, ⟨a, (hblind _ v a).mpr ha, rfl⟩, hb⟩

theorem decodeStrays_eq_ok_iff (h : Holds root w) {strays : StrayPolicy} :
    decodeStrays root = .ok strays ↔ strayPolicy "" (w .unknownCharacters) = .ok strays := by
  obtain ⟨origin, entries, v, hroot, hv, hbare⟩ := h.exists_table .unknownCharacters
  have hfields := fields_of_lookup (s := lexerSection) hroot
  rw [decodeStrays, hfields]
  refine (read?_bind_eq_ok_iff lexerSection strayPolicy_blind hv).trans ?_
  simp [hbare, Section.required]

theorem decodeDepth_eq_ok_iff (h : Holds root w) {depth : Nat} :
    decodeDepth root = .ok depth ↔ natural "" (w .maxDepth) = .ok depth := by
  obtain ⟨origin, entries, v, hroot, hv, hbare⟩ := h.exists_table .maxDepth
  have hfields := fields_of_lookup (s := parserSection) hroot
  rw [decodeDepth, hfields]
  refine (read?_bind_eq_ok_iff parserSection natural_blind hv).trans ?_
  simp [hbare, Section.required]

theorem decodeStyle_eq_ok_iff (h : Holds root w) {style : CodeStyle} :
    decodeStyle root = .ok style ↔
      stringPolicy "" (w .stringLiterals) = .ok style.strings ∧
      text "" (w .statementSeparator) = .ok style.statementSeparator ∧
      text "" (w .argumentSeparator) = .ok style.argumentSeparator := by
  obtain ⟨origin, entries, strings, hroot, hstrings, hbare₁⟩ := h.exists_table .stringLiterals
  obtain ⟨_, _, statement, hroot₂, hstatement, hbare₂⟩ := h.exists_table .statementSeparator
  obtain ⟨_, _, argument, hroot₃, hargument, hbare₃⟩ := h.exists_table .argumentSeparator
  -- the three keys are in one section
  cases hroot.symm.trans hroot₂
  cases hroot.symm.trans hroot₃
  have hfields := fields_of_lookup (s := codegenSection) hroot
  rw [decodeStyle, hfields]
  refine (read?_bind_eq_ok_iff codegenSection stringPolicy_blind hstrings).trans ?_
  constructor
  · rintro ⟨a, ha, hrest⟩
    obtain ⟨b, hb, hrest⟩ := (read?_bind_eq_ok_iff codegenSection text_blind hstatement).mp hrest
    obtain ⟨c, hc, hrest⟩ := (read?_bind_eq_ok_iff codegenSection text_blind hargument).mp hrest
    cases hrest
    rw [← hbare₁, ← hbare₂, ← hbare₃]
    exact ⟨ha, hb, hc⟩
  · rintro ⟨ha, hb, hc⟩
    rw [← hbare₁] at ha
    rw [← hbare₂] at hb
    rw [← hbare₃] at hc
    refine ⟨_, ha, (read?_bind_eq_ok_iff codegenSection text_blind hstatement).mpr ⟨_, hb, ?_⟩⟩
    exact (read?_bind_eq_ok_iff codegenSection text_blind hargument).mpr ⟨_, hc, rfl⟩

/-! ## Settings -/

/-- The settings that values at the keys give, each read by itself. -/
structure Gives (w : Key → Value) (c : Settings) : Prop where
  strays : strayPolicy "" (w .unknownCharacters) = .ok c.strays
  maxDepth : natural "" (w .maxDepth) = .ok c.maxDepth
  strings : stringPolicy "" (w .stringLiterals) = .ok c.style.strings
  statement : text "" (w .statementSeparator) = .ok c.style.statementSeparator
  argument : text "" (w .argumentSeparator) = .ok c.style.argumentSeparator

theorem decode_eq_ok_iff (h : Holds root w) {c : Settings} : decode root = .ok c ↔ Gives w c := by
  obtain ⟨strays, maxDepth, style⟩ := c
  have hstrays : ∀ a, decodeStrays root = .ok a ↔ _ := fun a => decodeStrays_eq_ok_iff h
  have hdepth : ∀ a, decodeDepth root = .ok a ↔ _ := fun a => decodeDepth_eq_ok_iff h
  have hstyle : ∀ a, decodeStyle root = .ok a ↔ _ := fun a => decodeStyle_eq_ok_iff h
  rw [decode]
  constructor
  · intro hdecode
    obtain ⟨a, ha, hrest⟩ := bind_eq_ok.mp hdecode
    obtain ⟨b, hb, hrest⟩ := bind_eq_ok.mp hrest
    obtain ⟨d, hd, hsettings⟩ := bind_eq_ok.mp hrest
    cases hsettings
    obtain ⟨hstrings, hstatement, hargument⟩ := (hstyle _).mp hd
    exact ⟨(hstrays _).mp ha, (hdepth _).mp hb, hstrings, hstatement, hargument⟩
  · rintro ⟨ha, hb, hstrings, hstatement, hargument⟩
    rw [(hstrays _).mpr ha, (hdepth _).mpr hb, (hstyle _).mpr ⟨hstrings, hstatement, hargument⟩]
    rfl

end CallForm.Config
