import PeerGateway.Proofs.Json.Grammar
import PeerGateway.Proofs.Json.Strings

/-!
# Spaced lists and objects read

What is read of a list or an object does not depend on the blanks between its tokens, nor on how the
names of its members are spelled. From some point of a container on, its text is `Json.listed`; a
reader takes the next element (`Json.nextElement_comma`) or the name of the next member
(`Json.nextMember_comma`) off its front, and so all elements of a list (`Json.elements_listed`).
-/

namespace PeerGateway

namespace Json

/-! ## Names -/

section Spelled

variable {bs s : Bytes} {c : Char}

theorem hexQuad_append {n : ℕ} (h : IsQuad bs n) (s : Bytes) : hexQuad (bs ++ s) = .ok (n, s) := by
  obtain ⟨ha, hb, hc, hd⟩ := h
  simp only [List.cons_append, List.nil_append, hexQuad, ha, hb, hc, hd]

theorem shortEscape?_of_mem : ∀ x ∈ shortEscapes,
    shortEscape? (Bytes.ascii x.1) = some (UInt8.ofNat x.2.toNat) ∧
      Bytes.ascii x.1 ≠ Bytes.ascii 'u' ∧ x.2.toNat ≤ 0x7F := by
  decide

theorem unicodeEscape_unit (h : IsQuad bs c.toNat) (s : Bytes) :
    unicodeEscape (bs ++ s) = .ok (c, s) := by
  have hvalid := Bytes.toNat_cases c
  simp only [unicodeEscape, hexQuad_append h]
  rw [if_neg (by omega), if_neg (by omega), Char.ofNat_toNat]

theorem unicodeEscape_pair {lead trail : Bytes} {high low : ℕ} (hlead : IsQuad lead (0xD800 + high))
    (htrail : IsQuad trail (0xDC00 + low)) (hlow : low < 0x400)
    (hc : c.toNat = 0x10000 + high * 0x400 + low) (s : Bytes) :
    unicodeEscape (lead ++ Bytes.ascii '\\' :: Bytes.ascii 'u' :: (trail ++ s)) = .ok (c, s) := by
  have hvalid := Bytes.toNat_cases c
  have hhigh : 0xD800 + high - 0xD800 = high := Nat.add_sub_cancel_left _ _
  have hrest : 0xDC00 + low - 0xDC00 = low := Nat.add_sub_cancel_left _ _
  have htrailing : 0xDC00 ≤ 0xDC00 + low ∧ 0xDC00 + low ≤ 0xDFFF := by omega
  simp only [unicodeEscape, hexQuad_append hlead, trailingSurrogate, if_true,
    hexQuad_append htrail, if_pos htrailing, hhigh, hrest, ← hc, Char.ofNat_toNat]
  rw [if_neg (by omega), if_pos (by omega)]

/-- What stands for a character is read as its UTF-8 form. -/
theorem steps_spellsChar (h : SpellsChar bs c) : Steps bs (String.utf8EncodeChar c) := by
  cases h with
  | plain hquote hslash hcontrol =>
    exact ⟨_, Nat.le_refl _, fun fuel read s =>
      stringContent_plain fuel s _ read (isPlain_of_mem hquote hslash hcontrol)⟩
  | short h =>
    obtain ⟨hshort, hletter, hascii⟩ := shortEscape?_of_mem _ h
    exact steps_short rfl hascii hletter hshort
  | unit h =>
    refine ⟨1, by simp, fun fuel read s => stringContent_escape fuel read ?_⟩
    show escape (Bytes.ascii 'u' :: (_ ++ s)) = _
    rw [escape, if_pos rfl, unicodeEscape_unit h]
  | @pair lead trail high low _ hlead htrail hlow hc =>
    refine ⟨1, by simp, fun fuel read s => ?_⟩
    rw [List.cons_append]
    refine stringContent_escape fuel read ?_
    rw [List.cons_append, List.append_assoc, List.cons_append, List.cons_append, escape,
      if_pos rfl, unicodeEscape_pair hlead htrail hlow hc]

/-- The content of a string is read up to its closing quote, however it is spelled. -/
theorem stringContent_parts {parts : List Bytes} {cs : List Char}
    (h : List.Forall₂ SpellsChar parts cs) (rest : Bytes) : ∀ (fuel : ℕ) (read : Bytes),
    parts.flatten.length < fuel →
    stringContent fuel read (parts.flatten ++ Bytes.ascii '"' :: rest) =
      .ok (read.reverse ++ Bytes.ofChars cs, rest) := by
  induction h with
  | nil =>
    intro fuel read hfuel
    obtain ⟨fuel, rfl⟩ := Nat.exists_eq_succ_of_ne_zero (Nat.ne_of_gt hfuel)
    rw [List.flatten_nil, List.nil_append, stringContent, if_pos rfl, Bytes.ofChars_nil,
      List.append_nil]
  | @cons p c parts cs hp _ ih =>
    intro fuel read hfuel
    obtain ⟨n, hn, hstep⟩ := steps_spellsChar hp
    rw [List.flatten_cons, List.length_append] at hfuel
    obtain ⟨fuel, rfl⟩ : ∃ k, fuel = k + n := ⟨fuel - n, by omega⟩
    rw [List.flatten_cons, List.append_assoc, hstep, ih fuel _ (by omega)]
    simp

/-- A string is read after its opening quote, however it is spelled. -/
theorem stringRest_spelled {bound : ℕ} {t rest : Bytes} {name : String} (h : Spells t name)
    (hbound : t.length ≤ bound) : ∃ t', t ++ rest = Bytes.ascii '"' :: t' ∧
      stringRest bound t' = .ok (name, rest) := by
  obtain ⟨parts, hparts, rfl⟩ := h
  refine ⟨parts.flatten ++ Bytes.ascii '"' :: rest, by simp [quotedParts], ?_⟩
  simp only [quotedParts, List.length_cons, List.length_append] at hbound
  rw [stringRest, stringContent_parts hparts rest _ _ (by omega)]
  simp only [List.reverse_nil, List.nil_append, Bytes.text?_ofChars, String.ofList_toList]

end Spelled

theorem spellsChar_control (h : c.toNat < 0x20) : SpellsChar (Bytes.ofString "\\u00" ++
    Bytes.ofChars (Bytes.hexPair (UInt8.ofNat c.toNat))) c := by
  have hbyte : (UInt8.ofNat c.toNat).toNat = c.toNat := by rw [UInt8.toNat_ofNat']; omega
  have hopen : Bytes.ofString "\\u00" =
      [Bytes.ascii '\\', Bytes.ascii 'u', Bytes.ascii '0', Bytes.ascii '0'] := by decide
  have hzero : Bytes.hexValue? (Bytes.ascii '0') = some 0 := by decide
  obtain ⟨b, hb, hhigh⟩ := Bytes.hexValue?_digitChar (c.toNat / 16) (by omega)
  obtain ⟨b', hb', hlow⟩ := Bytes.hexValue?_digitChar (c.toNat % 16) (by omega)
  have hquad := IsQuad.intro hzero hzero hhigh hlow
  have hvalue : ((0 * 16 + 0) * 16 + c.toNat / 16) * 16 + c.toNat % 16 = c.toNat := by omega
  rw [hvalue] at hquad
  simpa only [hopen, Bytes.hexPair, hbyte, Bytes.ofChars_cons, hb, hb', Bytes.ofChars_nil,
    List.append_nil, List.cons_append, List.nil_append] using SpellsChar.unit hquad

/-- What is written for a character stands for it. -/
theorem spellsChar_escaped (c : Char) : SpellsChar (escaped c) c := by
  have hshort {letter c' : Char} (hmem : (letter, c') ∈ shortEscapes) (hc : c.toNat = c'.toNat) :
      SpellsChar [Bytes.ascii '\\', Bytes.ascii letter] c := by
    obtain rfl := Char.toNat_inj.mp hc
    exact .short hmem
  unfold escaped
  split_ifs with hquote hslash h8 hC hA hD h9 hcontrol
  · exact hshort (by decide : ('"', '"') ∈ shortEscapes) (congrArg Char.toNat hquote)
  · exact hshort (by decide : ('\\', '\\') ∈ shortEscapes) (congrArg Char.toNat hslash)
  · exact hshort (by decide : ('b', '\x08') ∈ shortEscapes) h8
  · exact hshort (by decide : ('f', '\x0c') ∈ shortEscapes) hC
  · exact hshort (by decide : ('n', '\n') ∈ shortEscapes) hA
  · exact hshort (by decide : ('r', '\r') ∈ shortEscapes) hD
  · exact hshort (by decide : ('t', '\t') ∈ shortEscapes) h9
  · exact spellsChar_control hcontrol
  · exact .plain hquote hslash hcontrol

/-- A string is written in one of its spellings. -/
theorem spells_quoted (t : String) : Spells (quoted t) t := by
  refine ⟨t.toList.map escaped, ?_, by simp [quoted, quotedParts, List.flatMap_def]⟩
  rw [List.forall₂_map_left_iff]
  exact List.forall₂_same.mpr fun c _ => spellsChar_escaped c

/-! ## Blanks in front -/

section Blanks

variable {α : Type} (bl : Blanks) (s : Bytes)

theorem nextElement_blanks (first : Bool) :
    nextElement first (bl.text ++ s) = nextElement first s := by
  simp only [nextElement, skipBlank_blanks]

theorem closeList_blanks : closeList (bl.text ++ s) = closeList s := by
  simp only [closeList, skipBlank_blanks]

theorem nextMember_blanks (bound : ℕ) (first : Bool) :
    nextMember bound first (bl.text ++ s) = nextMember bound first s := by
  simp only [nextMember, skipBlank_blanks]

theorem closeObject_blanks : closeObject (bl.text ++ s) = closeObject s := by
  simp only [closeObject, skipBlank_blanks]

theorem colon_blanks : colon (bl.text ++ s) = colon s := by
  simp only [colon, skipBlank_blanks]

theorem elements_blanks (element : Bytes → Except Fault (α × Bytes)) (fuel : ℕ) (first : Bool)
    (read : List α) : elements element fuel first read (bl.text ++ s) =
      elements element fuel first read s := by
  cases fuel with
  | zero => rfl
  | succ fuel =>
    simp only [elements, nextElement_blanks, closeList_blanks]

end Blanks

/-! ## Pieces of a container -/

/-- What stands in front of an element or a member: a comma, but in front of the first. -/
def comma (first : Bool) : Bytes := if first then [] else [Bytes.ascii ',']

/-- The text of a container's pieces from some point on. -/
def listed : Bool → List Bytes → Bytes
  | _, [] => []
  | first, p :: ps => comma first ++ (p ++ listed false ps)

theorem listed_append (first : Bool) : ∀ ps qs : List Bytes,
    listed first (ps ++ qs) = listed first ps ++ listed (first && ps.isEmpty) qs
  | [], qs => by simp [listed]
  | p :: ps, qs => by
    simp [listed, listed_append false ps qs, List.append_assoc]

theorem listed_eq_flatMap : ∀ ps : List Bytes,
    listed false ps = ps.flatMap (Bytes.ascii ',' :: ·)
  | [] => rfl
  | p :: ps => by
    rw [listed, listed_eq_flatMap ps, List.flatMap_cons, List.cons_append]
    rfl

theorem separated_eq_listed (ps : List Bytes) : separated ps = listed true ps := by
  cases ps with
  | nil => rfl
  | cons p ps =>
    rw [separated_cons, listed, listed_eq_flatMap]
    rfl

theorem endsNumber_listed (ps : List Bytes) {s : Bytes} (hs : EndsNumber s) :
    EndsNumber (listed false ps ++ s) := by
  rw [listed_eq_flatMap]
  exact endsNumber_commas ps hs

/-- Each piece but the first has its comma at least. -/
theorem length_le_length_listed (first : Bool) (ps : List Bytes) :
    ps.length ≤ (listed first ps).length + 1 := by
  cases ps with
  | nil => exact Nat.zero_le _
  | cons p ps =>
    have hcommas := length_le_length_commas ps
    rw [← listed_eq_flatMap] at hcommas
    simp only [listed, List.length_cons, List.length_append]
    omega

/-- A piece and what is behind it lie within the text of all pieces. -/
theorem length_le_listed (first : Bool) (ps : List Bytes) (p : Bytes) (qs : List Bytes)
    (s : Bytes) : (p ++ (listed false qs ++ s)).length ≤
      (listed first (ps ++ p :: qs) ++ s).length := by
  rw [listed_append, listed]
  simp only [List.length_append]
  omega

theorem enclosed_append (c : Open) (ps : List Bytes) (last : Blanks) (s : Bytes) :
    c.enclosed ps last ++ s = c.opening :: (listed true ps ++ (last.text ++ c.mark :: s)) := by
  simp [Open.enclosed, separated_eq_listed]

/-! ## Lists -/

section List

variable {α : Type} {bound : ℕ} {element : Bytes → Except Fault (α × Bytes)}

/-- The next element is moved to, past its comma and the blanks before it. -/
theorem nextElement_comma {e : Padded} (first : Bool) (s : Bytes) (h : StartsText e.core) :
    nextElement first (comma first ++ (e.text ++ s)) =
      .ok (some (e.core ++ (e.after.text ++ s))) := by
  rw [Padded.text_append]
  cases first with
  | true =>
    show nextElement true (e.before.text ++ _) = _
    rw [nextElement_blanks]
    exact nextElement_first _ h
  | false =>
    have hskip (t : Bytes) : nextElement false (Bytes.ascii ',' :: (e.before.text ++ t)) =
        nextElement false (Bytes.ascii ',' :: t) := by
      simp [nextElement, skipBlank_comma, skipBlank_blanks]
    show nextElement false (Bytes.ascii ',' :: (e.before.text ++ _)) = _
    rw [hskip]
    exact nextElement_next _ h

/-- The elements of a list are read from some point on, if each is. -/
theorem elements_listed {vs : List α} {es : List Padded}
    (h : List.Forall₂ (fun v e => ReadsAs bound element e.core v ∧ StartsText e.core) vs es)
    (last : Blanks) (rest : Bytes) : ∀ (fuel : ℕ) (first : Bool) (read : List α),
    es.length < fuel →
    (listed first (es.map Padded.text) ++ (last.text ++ Bytes.ascii ']' :: rest)).length ≤ bound →
    elements element fuel first read
      (listed first (es.map Padded.text) ++ (last.text ++ Bytes.ascii ']' :: rest)) =
        .ok (read.reverse ++ vs, rest) := by
  induction h with
  | nil =>
    intro fuel first read hfuel _
    obtain ⟨fuel, rfl⟩ := Nat.exists_eq_succ_of_ne_zero (Nat.ne_of_gt hfuel)
    rw [List.map_nil, listed, List.nil_append, elements_blanks, elements, nextElement_bracket,
      closeList_bracket]
    simp only [List.append_nil]
  | @cons v e vs es he _ ih =>
    intro fuel first read hfuel hbound
    obtain ⟨fuel, rfl⟩ := Nat.exists_eq_succ_of_ne_zero (Nat.ne_zero_of_lt hfuel)
    obtain ⟨hread, hstart⟩ := he
    rw [List.map_cons, listed, List.append_assoc, List.append_assoc] at hbound ⊢
    simp only [List.length_append, List.length_cons, Padded.text] at hbound hfuel
    have hends := endsNumber_blanks e.after (endsNumber_listed (es.map Padded.text)
      (endsNumber_blanks last (endsNumber_bracket rest)))
    have helement := hread _ hends (by simp only [List.length_append, List.length_cons]; omega)
    have hmore := ih fuel false (v :: read) (by omega)
      (by simp only [List.length_append, List.length_cons]; omega)
    rw [elements_step (nextElement_comma first _ hstart) (r := .ok v) helement, Except.bind,
      elements_blanks, hmore]
    simp

end List

/-! ## Members -/

/-- A member and what follows it leave a bound for its value and for what follows that. -/
theorem length_of_text {bound : ℕ} {m : Member} {s : Bytes} (h : (m.text ++ s).length ≤ bound) :
    (m.value.text ++ s).length ≤ bound ∧
      (m.value.core ++ (m.value.after.text ++ s)).length ≤ bound := by
  rw [Member.text_append, List.length_append, List.length_cons] at h
  refine ⟨by omega, ?_⟩
  rw [Padded.text_append, List.length_append] at h
  omega

/-- A member with the name that it is read under. -/
structure Named extends Member where
  key : String
  spells : Spells name.core key

/-- A member as it is written, without blanks. -/
def Named.bare (key : String) (value : Bytes) : Named :=
  ⟨⟨.bare (quoted key), .bare value⟩, key, spells_quoted key⟩

@[simp] theorem Named.text_bare (key : String) (value : Bytes) :
    (bare key value).text = memberText key value := by
  simp [bare, Member.text, memberText]

/-- The texts of members. -/
def texts (ms : List Named) : List Bytes := ms.map fun m => m.text

theorem texts_cons (m : Named) (ms : List Named) : texts (m :: ms) = m.text :: texts ms :=
  List.map_cons

theorem texts_append (ms ms' : List Named) : texts (ms ++ ms') = texts ms ++ texts ms' :=
  List.map_append

theorem length_texts (ms : List Named) : (texts ms).length = ms.length :=
  List.length_map _

/-- The name of the next member is read, past its comma and the blanks before it. -/
theorem nextMember_comma {bound : ℕ} (m : Named) (first : Bool) (s : Bytes)
    (hbound : (m.text ++ s).length ≤ bound) :
    nextMember bound first (comma first ++ (m.text ++ s)) =
      .ok (some (m.key, m.name.after.text ++ Bytes.ascii ':' :: (m.value.text ++ s))) := by
  rw [Member.text_append, Padded.text_append] at hbound ⊢
  simp only [List.length_append] at hbound
  obtain ⟨t, hname, hread⟩ := @stringRest_spelled bound m.name.core
    (m.name.after.text ++ Bytes.ascii ':' :: (m.value.text ++ s)) m.key m.spells (by omega)
  have hquote : skipBlank (Bytes.ascii '"' :: t) = Bytes.ascii '"' :: t :=
    skipBlank_cons t (by decide)
  rw [hname]
  cases first with
  | true =>
    have hbrace : Bytes.ascii '"' ≠ Bytes.ascii '}' := by decide
    show nextMember bound true (m.name.before.text ++ _) = _
    rw [nextMember_blanks, nextMember, hquote]
    simp only [if_neg hbrace, if_true, hread]
  | false =>
    have hbrace : Bytes.ascii ',' ≠ Bytes.ascii '}' := by decide
    show nextMember bound false (Bytes.ascii ',' :: (m.name.before.text ++ _)) = _
    rw [nextMember, skipBlank_comma]
    simp only [if_neg hbrace, if_true, skipBlank_blanks, hquote, hread, Bool.false_eq_true,
      if_false]

/-- The colon after a member's name is read, and the blanks before the value are left. -/
theorem colon_name (m : Named) (s : Bytes) :
    colon (m.name.after.text ++ Bytes.ascii ':' :: s) = .ok s := by
  rw [colon_blanks, colon_cons]

end Json

end PeerGateway
