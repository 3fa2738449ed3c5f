/-
  CallForm.Proofs.Tagged.Nested — the same value read alone and as the body of a program.

  The outermost value and those below it are read by one rule, but for the tag: below others it
  may also be the index of a kind (`IndexTagged`). Without such a tag both readings agree
  (`node_eq_ok_iff`); with it the value is refused alone (`IndexTagged.node_false`), and below
  others the index stands for the name (`IndexTagged.node_true`). The text of a program around
  the text of a value is that of the program around the value (`Json.Spells.inProgram`), so this
  is also how texts are read (`values_read_alike_in_programs_iff`). That an index counts in programs
  only is not what is written of tags; `an_index_is_a_kind_in_programs_only` is the shortest case.
-/

import CallForm.Proofs.Tagged.Represents

namespace CallForm

namespace Json

/-- A program whose body is this value. -/
def inProgram (v : Json) : Json := .tagged "Program" [("body", .array [v])]

/-- The text of such a program, where this is a text of the value. -/
def textInProgram (text : String) : String :=
  "\x7b\"type\":\"Program\",\"body\":[" ++ text ++ "]\x7d"

/-- The members of such a program, each with its text. -/
def membersInProgram (text : String) (v : Json) : List (List Char × (String × Json)) :=
  [((quoted "type").toList ++ ':' :: (quoted "Program").toList, "type", .string "Program"),
    ((quoted "body").toList ++ ':' :: ('[' :: (text.toList ++ [']'])), "body", .array [v])]

theorem textInProgram_eq (text : String) :
    textInProgram text = "\x7b" ++ quoted "type" ++ ":" ++ quoted "Program" ++ "," ++
      quoted "body" ++ ":[" ++ text ++ "]\x7d" :=
  congrArg (fun before : String => before ++ text ++ "]\x7d") (by rfl)

theorem toList_textInProgram (text : String) (v : Json) :
    (textInProgram text).toList = '\x7b' ::
      (Layout.compact.between 0 ((membersInProgram text v).map Prod.fst) ++ ['\x7d']) := by
  simp [textInProgram_eq, membersInProgram, Layout.between, Layout.listed]

theorem Spells.inProgram {text : String} {v : Json} (h : Spells text v) :
    Spells (textInProgram text) v.inProgram := by
  have htype := Yields.member "type" (legible_string "Program" .compact 0 (v.nesting + 1))
  have hbody := Yields.member "body" (h.yields_array (Nat.le_refl v.nesting))
  have hyields : ∀ m ∈ membersInProgram text v,
      Yields (readMember (readValue (v.nesting + 1))) m.1 (.ok m.2) :=
    List.forall_mem_cons.mpr ⟨htype, List.forall_mem_singleton.mpr hbody⟩
  have hmembers := readList_between id .compact 0 (.inr rfl) _ hyields []
  refine ⟨v.nesting + 2, ?_⟩
  rw [ofText, toList_textInProgram text v, readValue.eq_def, skipBlanks_cons rfl]
  simp only [hmembers]
  rfl

end Json

namespace Tagged

namespace Dialect

variable {κ ν : Type} (d : Dialect κ ν)

/-- The tag of the value is a number, the index of a kind; the other value has the kind's name in
    its place. -/
inductive IndexTagged : Json → Json → Prop
  | object {members : List (String × Json)} {n : Json.Numeral} {i : Nat} {kind : κ} :
      members.filter (·.1 = "type") = [("type", .number n)] → n.value? = some (.natural i) →
      d.kinds[i]? = some kind →
      IndexTagged (.object members) (.object (members.map fun m =>
        if m.1 = "type" then ("type", .string (d.name kind)) else m))
  | array {items : List Json} {n : Json.Numeral} {i : Nat} {kind : κ} :
      n.value? = some (.natural i) → d.kinds[i]? = some kind →
      IndexTagged (.array (.number n :: items)) (.array (.string (d.name kind) :: items))

variable {d} {kind : κ} {v w tag : Json} {t : ν}

theorem readTag_true_eq_ok :
    d.readTag true tag = .ok kind ↔ d.readTag false tag = .ok kind ∨
      ∃ n i, tag = .number n ∧ n.value? = some (.natural i) ∧ d.kinds[i]? = some kind := by
  cases tag with
  | number n =>
    cases hvalue : n.value? with
    | none => simp [readTag, hvalue]
    | some value =>
      cases value with
      | natural i => cases hkind : d.kinds[i]? <;> simp [readTag, hvalue, hkind]
      | _ => simp [readTag, hvalue]
  | _ => simp [readTag]

theorem readTag_false_number (n : Json.Numeral) :
    d.readTag false (.number n) = .error (.invalidType (.number n) "variant identifier") := by
  simp [readTag]

variable [DecidableEq κ]

/-- Without such a tag a value is read as the same node below others and as the outermost. -/
theorem node_eq_ok_iff (h : ∀ w, ¬ d.IndexTagged v w) :
    d.node true v = .ok t ↔ d.node false v = .ok t := by
  cases v with
  | array items =>
    cases items with
    | nil => rfl
    | cons tag items =>
      have htag (kind : κ) : d.readTag true tag = .ok kind ↔ d.readTag false tag = .ok kind := by
        refine readTag_true_eq_ok.trans (or_iff_left ?_)
        rintro ⟨n, i, rfl, hvalue, hkind⟩
        exact h _ (.array hvalue hkind)
      simp only [node, ofItems, bind_eq_ok, htag]
  | object members =>
    have htag (kind : κ) : d.tagOfMembers true none members = .ok kind ↔
        d.tagOfMembers false none members = .ok kind := by
      simp only [tagOfMembers_eq_ok]
      refine or_congr_right (and_congr_right fun _ => exists_congr fun tag =>
        and_congr_right fun htype => readTag_true_eq_ok.trans (or_iff_left ?_))
      rintro ⟨n, i, rfl, hvalue, hkind⟩
      exact h _ (.object htype hvalue hkind)
    simp only [node, ofMembers, bind_eq_ok, htag]
  | _ => rfl

omit [DecidableEq κ] in
/-- A wrong tag is the error of an object. -/
theorem tagOfMembers_of_error {nested : Bool} {members : List (String × Json)} {e : DataError}
    (h : members.filter (·.1 = "type") = [("type", tag)]) (he : d.readTag nested tag = .error e) :
    d.tagOfMembers nested none members = .error e := by
  induction members with
  | nil => cases h
  | cons m members ih =>
    obtain ⟨name, x⟩ := m
    by_cases hname : name = "type"
    · rw [List.filter_cons_of_pos (by simpa using hname)] at h
      obtain rfl : x = tag := (Prod.mk.inj (List.cons.inj h).1).2
      rw [tagOfMembers, if_pos hname, he]
      rfl
    · rw [List.filter_cons_of_neg (by simpa using hname)] at h
      rw [tagOfMembers, if_neg hname]
      exact ih h

/-- The index is an error in the outermost value. -/
theorem IndexTagged.node_false (h : d.IndexTagged v w) :
    ∃ n, d.node false v = .error (.invalidType (.number n) "variant identifier") := by
  cases h with
  | @object members n i kind htype hvalue hkind =>
    refine ⟨n, ?_⟩
    rw [node, ofMembers, tagOfMembers_of_error htype (readTag_false_number n)]
    rfl
  | @array items n i kind hvalue hkind =>
    refine ⟨n, ?_⟩
    rw [node, ofItems, readTag_false_number]
    rfl

/-- The tag is none of the fields, so it does not matter to them. -/
theorem fillMembers_retagged (hd : d.Lawful) (tag : Json) {fields : Fields ν}
    (members : List (String × Json)) :
    d.fillMembers kind fields (d.rolesOfMembers
      (members.map fun m => if m.1 = "type" then ("type", tag) else m)) =
        d.fillMembers kind fields (d.rolesOfMembers members) := by
  induction members generalizing fields with
  | nil => rfl
  | cons m members ih =>
    rw [List.map_cons, fillMembers_cons, fillMembers_cons]
    by_cases hm : m.1 = "type"
    · simp [hm, hd.untagged, ih]
    · simp [hm, ih]

/-- Below others the index stands for the name. -/
theorem IndexTagged.node_true (hd : d.Lawful) (h : d.IndexTagged v w) :
    d.node true v = d.node false w := by
  cases h with
  | @object members n i kind htype hvalue hkind =>
    have hindex : d.readTag true (.number n) = .ok kind :=
      readTag_true_eq_ok.mpr (.inr ⟨n, i, rfl, hvalue, hkind⟩)
    have htag := tagOfMembers_eq_ok.mpr (.inr ⟨rfl, _, htype, hindex⟩)
    have htype' : (members.map fun m =>
        if m.1 = "type" then ("type", Json.string (d.name kind)) else m).filter (·.1 = "type") =
          [("type", .string (d.name kind))] := by
      have hsame : (fun m : String × Json => decide (m.1 = "type")) ∘ (fun m =>
          if m.1 = "type" then ("type", Json.string (d.name kind)) else m) =
            fun m => decide (m.1 = "type") := by
        funext m
        by_cases hm : m.1 = "type" <;> simp [hm]
      rw [List.filter_map, hsame, htype]
      rfl
    have htag' := tagOfMembers_eq_ok.mpr (.inr ⟨rfl, _, htype', hd.tag false kind⟩)
    rw [node, node, ofMembers, ofMembers, htag, htag']
    simp only [fillMembers_retagged hd, bind, Except.bind]
  | @array items n i kind hvalue hkind =>
    have hindex : d.readTag true (.number n) = .ok kind :=
      readTag_true_eq_ok.mpr (.inr ⟨n, i, rfl, hvalue, hkind⟩)
    rw [node, node, ofItems, ofItems, hindex, hd.tag]
    rfl

/-! ## Programs of one value -/

variable (d) in
/-- The kind of the programs, and how they are built. -/
structure Roots (root : κ) (program : List ν → ν) : Prop where
  name_eq : d.name root = "Program"
  slots_eq : d.slots root = [("body", .nodes)]
  build_eq : ∀ ns, d.build root { nodes := some ns } = .ok (program ns)
  kindOf_eq : ∀ ns, d.kindOf (program ns) = root
  inj : ∀ {ns ns'}, program ns = program ns' → ns = ns'

variable {root : κ} {program : List ν → ν}

/-- A program with one value in its body is read as far as the value is read below others. -/
theorem Roots.node_inProgram (hroot : d.Roots root program) (hd : d.Lawful) (v : Json) :
    d.node false v.inProgram = (d.node true v).map fun n => program [n] := by
  have hkind : d.tagOfMembers false none
      [("type", .string "Program"), ("body", .array [v])] = .ok root := by
    have htag := hd.tag false root
    rw [hroot.name_eq] at htag
    simp [tagOfMembers, htag, bind, Except.bind]
  have hbody : (d.roles (.array [v])).nodes = (d.node true v).map fun n => [n] := by
    rw [← roles_node, roles, rolesOfItems_eq_map]
    cases hv : (d.roles v).node <;> simp [hv, bind, Except.bind, Except.map, pure, Except.pure]
  have hfields : d.fillMembers root {} (d.rolesOfMembers
      [("type", .string "Program"), ("body", .array [v])]) =
        (d.node true v).map fun n => { nodes := some [n] } := by
    have hlookup : (d.slots root).lookup "body" = some .nodes := by rw [hroot.slots_eq]; rfl
    rw [fillMembers_cons, hd.untagged]
    dsimp only
    rw [fillMembers_cons, hlookup]
    simp only [fill, hbody]
    cases d.node true v <;> rfl
  rw [Json.inProgram, Json.tagged, node, ofMembers, hkind]
  simp only [bind, Except.bind, hfields]
  cases d.node true v <;> simp [Except.map, hroot.build_eq]

theorem Roots.ofText_inProgram (hroot : d.Roots root program) (hd : d.Lawful) {text : String}
    (h : Json.Spells text v) (hdepth : v.nesting ≤ 125) :
    d.ofText (some root) (Json.textInProgram text) =
      ((d.node true v).map fun n => program [n]).mapError .data := by
  have hnesting : v.inProgram.nesting ≤ Json.maxDepth := by
    simp only [Json.inProgram, Json.tagged, Json.nesting, Json.nestingOfMembers,
      Json.nestingOfItems, Json.maxDepth]
    omega
  rw [ofText_eq h.inProgram hnesting, ofJsonAs, ofJson_eq_node, hroot.node_inProgram hd]
  cases d.node true v <;> simp [Except.map, bind, Except.bind, narrow, hroot.kindOf_eq]

variable (d root program) in
/-- Alone and as the body of a program, the text is read as the same node, or refused. -/
def ReadsAlike (text : String) : Prop :=
  (∀ n, d.ofText (some root) (Json.textInProgram text) = .ok (program [n]) ↔
    d.ofText none text = .ok n) ∧
  ((∃ e, d.ofText (some root) (Json.textInProgram text) = .error e) ↔
    ∃ e, d.ofText none text = .error e)

variable (d root program) in
/-- With the index of a kind at the place of its tag the value is refused alone, and read in a
    program as it would be with the name of the kind. -/
def IndexNamesKind (text : String) (v : Json) : Prop :=
  ∀ w, d.IndexTagged v w →
    (∃ i, d.ofText none text = .error (.data (.invalidType (.number i) "variant identifier"))) ∧
    d.ofText (some root) (Json.textInProgram text) =
      ((d.ofJson w).map fun n => program [n]).mapError .data

omit [DecidableEq κ] in
theorem Roots.ok_singleton_inj (hroot : d.Roots root program) {ε : Type} {n n' : ν} :
    (.ok (program [n]) : Except ε ν) = .ok (program [n']) ↔ (.ok n : Except ε ν) = .ok n' := by
  refine ⟨fun h => ?_, fun h => ?_⟩
  · rw [(List.cons.inj (hroot.inj (Except.ok.inj h))).1]
  · rw [Except.ok.inj h]

variable {text : String}

theorem Roots.readsAlike_of_untagged (hroot : d.Roots root program) (hd : d.Lawful)
    (htext : Json.Spells text v) (hdepth : v.nesting ≤ 125) (htag : ∀ w, ¬ d.IndexTagged v w) :
    d.ReadsAlike root program text := by
  rw [ReadsAlike, hroot.ofText_inProgram hd htext hdepth,
    ofText_none htext (Nat.le_trans hdepth (by decide))]
  have hsame (t : ν) := node_eq_ok_iff (t := t) htag
  cases htrue : d.node true v with
  | ok t =>
    rw [(hsame t).mp htrue]
    exact ⟨fun n => hroot.ok_singleton_inj, by simp [Except.map, Except.mapError]⟩
  | error e =>
    cases hfalse : d.node false v with
    | ok t =>
      rw [(hsame t).mpr hfalse] at htrue
      cases htrue
    | error e' => simp [Except.map, Except.mapError]

theorem Roots.indexNamesKind (hroot : d.Roots root program) (hd : d.Lawful)
    (htext : Json.Spells text v) (hdepth : v.nesting ≤ 125) :
    d.IndexNamesKind root program text v := by
  intro w hw
  obtain ⟨i, hi⟩ := hw.node_false
  rw [hroot.ofText_inProgram hd htext hdepth, hw.node_true hd, ofJson_eq_node,
    ofText_none htext (Nat.le_trans hdepth (by decide)), hi]
  exact ⟨⟨i, rfl⟩, rfl⟩

/-- The two readings differ exactly where the index is one of a kind that the rest of the value
    is a node of. -/
theorem Roots.readsAlike_iff (hroot : d.Roots root program) (hd : d.Lawful)
    (htext : Json.Spells text v) (hdepth : v.nesting ≤ 125) :
    d.ReadsAlike root program text ↔
      ∀ w, d.IndexTagged v w → ∃ e, d.ofJson w = .error e := by
  have hindex := hroot.indexNamesKind hd htext hdepth
  refine ⟨fun halike w hw => ?_, fun hrefused => ?_⟩
  · obtain ⟨⟨i, halone⟩, hprogram⟩ := hindex w hw
    obtain ⟨e, he⟩ := halike.2.mpr ⟨_, halone⟩
    rw [hprogram] at he
    cases hread : d.ofJson w with
    | ok n =>
      rw [hread] at he
      cases he
    | error e => exact ⟨e, rfl⟩
  · by_cases htag : ∃ w, d.IndexTagged v w
    · obtain ⟨w, hw⟩ := htag
      obtain ⟨e, he⟩ := hrefused w hw
      obtain ⟨⟨i, halone⟩, hprogram⟩ := hindex w hw
      rw [ReadsAlike, hprogram, halone, he]
      simp [Except.map, Except.mapError]
    · exact hroot.readsAlike_of_untagged hd htext hdepth fun w hw => htag ⟨w, hw⟩

end Dialect

open Dialect

theorem roots_source : sourceDialect.Roots .program .program :=
  ⟨rfl, rfl, fun _ => rfl, fun _ => rfl, Source.Node.program.inj⟩

theorem roots_target : targetDialect.Roots .program .program :=
  ⟨rfl, rfl, fun _ => rfl, fun _ => rfl, Target.Node.program.inj⟩

/-- In both dialects a value is read alike alone and as the body of a program, unless the index
    of a kind stands at the place of its tag and the kind fits the rest of the value. -/
theorem values_read_alike_in_programs_iff {text : String} {v : Json} (htext : Json.Spells text v)
    (hdepth : v.nesting ≤ 125) :
    ((sourceDialect.ReadsAlike .program .program text ↔
        ∀ w, sourceDialect.IndexTagged v w → ∃ e, sourceDialect.ofJson w = .error e) ∧
      sourceDialect.IndexNamesKind .program .program text v) ∧
    ((targetDialect.ReadsAlike .program .program text ↔
        ∀ w, targetDialect.IndexTagged v w → ∃ e, targetDialect.ofJson w = .error e) ∧
      targetDialect.IndexNamesKind .program .program text v) :=
  ⟨⟨roots_source.readsAlike_iff sourceDialect_lawful htext hdepth,
      roots_source.indexNamesKind sourceDialect_lawful htext hdepth⟩,
    roots_target.readsAlike_iff targetDialect_lawful htext hdepth,
    roots_target.indexNamesKind targetDialect_lawful htext hdepth⟩

/-- Two stands for the kind of numbers. -/
def indexedNumber : Json := .object [("type", .number { whole := ['2'] }), ("value", .string "7")]

theorem spells_indexedNumber :
    Json.Spells "\x7b\"type\":2,\"value\":\"7\"\x7d" indexedNumber := by
  have htwo (rest : List Char) :
      Json.readNumber ('2' :: ',' :: rest) = .ok (.number { whole := ['2'] }, ',' :: rest) := by
    rfl
  refine ⟨1, ?_⟩
  simp [Json.ofText, Json.readValue, Json.skipBlanks, Json.isBlank, Json.readList, Json.readItems,
    Json.readMember, Json.readName, Json.readString, Json.readStringFrom, htwo, bind, Except.bind,
    Except.map, indexedNumber]

theorem indexTagged_indexedNumber : sourceDialect.IndexTagged indexedNumber
    (.object [("type", .string "NumberLiteral"), ("value", .string "7")]) := by
  have hvalue : Json.Numeral.value? { whole := ['2'] } = some (.natural 2) := by rfl
  exact @IndexTagged.object _ _ sourceDialect _ _ _ .number rfl hvalue rfl

theorem ofJson_namedNumber : sourceDialect.ofJson
    (.object [("type", .string "NumberLiteral"), ("value", .string "7")]) = .ok (.number "7") := by
  rw [ofJson_eq_node]
  exact (Source.Represents.number (.object (by simp))).node_eq false

/-- A number in the form of an array is read alike in both places; with the index of its kind it
    is refused alone, and the number in a program. -/
theorem a_number_alone_and_in_a_program :
    sourceDialect.ofText none "[\"NumberLiteral\",\"7\"]" = .ok (.number "7") ∧
      sourceDialect.ofText (some .program) (Json.textInProgram "[\"NumberLiteral\",\"7\"]") =
        .ok (.program [.number "7"]) ∧
      (∃ i, sourceDialect.ofText none "\x7b\"type\":2,\"value\":\"7\"\x7d" =
        .error (.data (.invalidType (.number i) "variant identifier"))) ∧
      sourceDialect.ofText (some .program)
          (Json.textInProgram "\x7b\"type\":2,\"value\":\"7\"\x7d") =
        .ok (.program [.number "7"]) := by
  have hlegible : Json.Legible (.array [.string "NumberLiteral", .string "7"]) :=
    Json.legible_array (by simp [Json.legible_string])
  have harray : Json.Spells "[\"NumberLiteral\",\"7\"]"
      (.array [.string "NumberLiteral", .string "7"]) := hlegible.spells
  have halone : sourceDialect.ofText none "[\"NumberLiteral\",\"7\"]" = .ok (.number "7") := by
    have hnumber : Source.Represents (.array [.string "NumberLiteral", .string "7"])
      (.number "7") := .number .array
    rw [ofText_none harray (by decide), hnumber.node_eq false]
    rfl
  have hnamed : ∀ w, ¬ sourceDialect.IndexTagged
      (.array [.string "NumberLiteral", .string "7"]) w := by
    rintro w ⟨⟩
  obtain ⟨⟨halike, -⟩, -⟩ := values_read_alike_in_programs_iff harray (by decide)
  obtain ⟨hsame, -⟩ := halike.mpr fun w hw => absurd hw (hnamed w)
  obtain ⟨⟨-, hnames⟩, -⟩ := values_read_alike_in_programs_iff spells_indexedNumber (by decide)
  obtain ⟨hrefused, hread⟩ := hnames _ indexTagged_indexedNumber
  rw [ofJson_namedNumber] at hread
  exact ⟨halone, (hsame _).mpr halone, hrefused, hread⟩

/-- The index of numbers at the place of a tag: refused alone, and a number in a program. -/
theorem an_index_is_a_kind_in_programs_only :
    Json.Spells "\x7b\"type\":2,\"value\":\"7\"\x7d" indexedNumber ∧
      indexedNumber.nesting ≤ 125 ∧
      sourceDialect.ofText none "\x7b\"type\":2,\"value\":\"7\"\x7d" =
        .error (.data (.invalidType (.number { whole := ['2'] }) "variant identifier")) ∧
      sourceDialect.ofText (some .program)
          (Json.textInProgram "\x7b\"type\":2,\"value\":\"7\"\x7d") =
        .ok (.program [.number "7"]) := by
  refine ⟨spells_indexedNumber, by decide, ?_, ?_⟩
  · rw [ofText_none spells_indexedNumber (by decide), indexedNumber, node, ofMembers,
      tagOfMembers_of_error rfl (readTag_false_number _)]
    rfl
  · rw [roots_source.ofText_inProgram sourceDialect_lawful spells_indexedNumber (by decide),
      indexTagged_indexedNumber.node_true sourceDialect_lawful, ← ofJson_eq_node,
      ofJson_namedNumber]
    rfl

end Tagged

end CallForm
