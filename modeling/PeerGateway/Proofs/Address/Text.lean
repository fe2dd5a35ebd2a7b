import PeerGateway.Address.Socket
import PeerGateway.Proofs.Text.Bytes
import PeerGateway.Proofs.Text.Digits
import Mathlib.Data.List.TakeWhile

/-!
# Internet addresses read back

The text of an internet address is read as that address, and with a port behind it as the socket
address (`SocketAddress.parse?_withPort`). Numbers are read as long as there are digits, so each
lemma says what may follow (`Ip.EndsDigits`, `Ip.EndsGroups`). It follows that an address which is
pinned to a host of its own is no wildcard (`isWildcard_pinned`).

The text of a version 6 address has one of three shapes (`Ip.text_cases`) : all groups, the groups
around a run of zeros, or a version 4 address behind a fixed front.
-/

namespace PeerGateway

namespace Ip

/-! ## Numbers -/

/-- What may follow a number: nothing, or a character that is no digit. -/
def EndsDigits (base : ℕ) (rest : List Char) : Prop := ∀ c ∈ rest.head?, digitIn? base c = none

section Numbers

variable {base n : ℕ} {rest : List Char}

theorem takeWhile_digits (hb : 1 < base) (hbase : base ≤ 16) (hrest : EndsDigits base rest) :
    (Nat.toDigits base n ++ rest).takeWhile (fun c => (digitIn? base c).isSome) =
        Nat.toDigits base n ∧
      (Nat.toDigits base n ++ rest).dropWhile (fun c => (digitIn? base c).isSome) = rest := by
  have hdigits : ∀ c ∈ Nat.toDigits base n, (digitIn? base c).isSome = true :=
    isSome_of_mem_toDigits hb hbase
  have hend : rest.takeWhile (fun c => (digitIn? base c).isSome) = [] ∧
      rest.dropWhile (fun c => (digitIn? base c).isSome) = rest := by
    cases rest with
    | nil => exact ⟨rfl, rfl⟩
    | cons c rest =>
      have hc := hrest c rfl
      simp [hc]
  rw [List.takeWhile_append_of_pos hdigits, List.dropWhile_append_of_pos hdigits, hend.1, hend.2,
    List.append_nil]
  exact ⟨rfl, rfl⟩

/-- A number is read back. -/
theorem takeNumber_toDigits {most : Option ℕ} {zeros : Bool} (hb : 1 < base) (hbase : base ≤ 16)
    (hmost : ∀ k ∈ most, (Nat.toDigits base n).length ≤ k) (hrest : EndsDigits base rest) :
    takeNumber base most zeros (Nat.toDigits base n ++ rest) = some (n, rest) := by
  obtain ⟨htake, hdrop⟩ := takeWhile_digits (n := n) hb hbase hrest
  have hempty : (Nat.toDigits base n).isEmpty = false := by
    simp
  have hlength : most.any (· < (Nat.toDigits base n).length) = false := by
    cases most with
    | none => rfl
    | some k => simpa using hmost k rfl
  have hlead : (!zeros && 1 < (Nat.toDigits base n).length &&
      (Nat.toDigits base n).head? = some '0') = false := by
    by_contra hlead
    simp only [Bool.not_eq_false, Bool.and_eq_true, decide_eq_true_eq] at hlead
    have hzero := eq_zero_of_head?_toDigits hb hbase hlead.2
    rw [hzero, Nat.toDigits_zero] at hlead
    simp at hlead
  unfold takeNumber
  simp only [htake, hdrop, hempty, hlength, hlead, Bool.false_eq_true, if_false,
    foldl_toDigits hb hbase]

theorem takeBelow_toDigits {limit : ℕ} {most : Option ℕ} {zeros : Bool} (hb : 1 < base)
    (hbase : base ≤ 16) (hn : n < limit) (hmost : ∀ k ∈ most, (Nat.toDigits base n).length ≤ k)
    (hrest : EndsDigits base rest) :
    takeBelow limit base most zeros (Nat.toDigits base n ++ rest) = some (n, rest) := by
  rw [takeBelow, takeNumber_toDigits hb hbase hmost hrest, Option.filter_some,
    if_pos (decide_eq_true hn)]

/-- Where there is no digit, there is no number. -/
theorem takeNumber_eq_none {most : Option ℕ} {zeros : Bool} (h : EndsDigits base rest) :
    takeNumber base most zeros rest = none := by
  have hempty : rest.takeWhile (fun c => (digitIn? base c).isSome) = [] := by
    cases rest with
    | nil => rfl
    | cons c rest =>
      have hc := h c rfl
      simp [hc]
  simp [takeNumber, hempty]

/-- What follows a number that was taken. -/
theorem rest_of_takeNumber {most : Option ℕ} {zeros : Bool} {s : List Char}
    (h : takeNumber base most zeros s = some (n, rest)) :
    rest = s.dropWhile fun c => (digitIn? base c).isSome := by
  unfold takeNumber at h
  dsimp only at h
  split_ifs at h
  exact (Prod.mk.inj (Option.some.inj h)).2.symm

end Numbers

/-! ## Version 4 -/

section V4

variable {rest : List Char}

theorem takeByte_text (a : UInt8) (hrest : EndsDigits 10 rest) :
    takeByte (Nat.toDigits 10 a.toNat ++ rest) = some (a, rest) := by
  have hlt : a.toNat < 256 := a.toNat_lt
  have hlength : ∀ k ∈ some 3, (Nat.toDigits 10 a.toNat).length ≤ k := by
    rintro k ⟨⟩
    rw [Nat.length_toDigits_le_iff (by decide) (by decide)]
    omega
  rw [takeByte, takeBelow_toDigits (by decide) (by decide) hlt hlength hrest, Option.map_some]
  exact congrArg (fun a => some (a, rest)) UInt8.ofNat_toNat

theorem endsDigits_cons {base : ℕ} {c : Char} (h : digitIn? base c = none) (s : List Char) :
    EndsDigits base (c :: s) := by
  rintro d ⟨⟩
  exact h

theorem toList_v4Text (a b c d : UInt8) : (v4Text a b c d).toList =
    Nat.toDigits 10 a.toNat ++ '.' :: (Nat.toDigits 10 b.toNat ++ '.' ::
      (Nat.toDigits 10 c.toNat ++ '.' :: Nat.toDigits 10 d.toNat)) := by
  simp [v4Text]

/-- The text of a version 4 address has no colon. -/
theorem not_mem_v4Text (a b c d : UInt8) : ':' ∉ (v4Text a b c d).toList := by
  have hdigits (n : ℕ) : ':' ∉ Nat.toDigits 10 n := fun hmem =>
    absurd (isSome_of_mem_toDigits (by decide) (by decide) ':' hmem) (by decide)
  simp [toList_v4Text, hdigits]

theorem takeV4_text (a b c d : UInt8) (hrest : EndsDigits 10 rest) :
    takeV4 ((v4Text a b c d).toList ++ rest) = some ((a, b, c, d), rest) := by
  have hpoint (s : List Char) : EndsDigits 10 ('.' :: s) := endsDigits_cons (by decide) s
  simp only [toList_v4Text, List.append_assoc, List.cons_append, takeV4, takeByte_text _ (hpoint _),
    takeByte_text _ hrest, takeChar, if_true, Option.bind_eq_bind, Option.bind_some,
    Option.pure_def]

/-- Where no point follows the digits, there is no version 4 address. -/
theorem takeV4_eq_none {s : List Char}
    (h : ∀ c ∈ (s.dropWhile fun c => (digitIn? 10 c).isSome).head?, c ≠ '.') : takeV4 s = none := by
  cases hbyte : takeByte s with
  | none => simp [takeV4, hbyte]
  | some found =>
    obtain ⟨a, rest⟩ := found
    obtain ⟨⟨n, t⟩, hbelow, heq⟩ := Option.map_eq_some_iff.mp hbyte
    obtain ⟨-, rfl⟩ := Prod.mk.inj heq
    have hnumber := (Option.filter_eq_some_iff.mp hbelow).1
    rw [← rest_of_takeNumber hnumber] at h
    have hpoint : takeChar '.' t = none := by
      cases t with
      | nil => rfl
      | cons c t => exact if_neg (h c rfl)
    simp [takeV4, hbyte, hpoint]

end V4

/-! ## Version 6 -/

section V6

variable {rest : List Char}

/-- Groups with a colon in front of each. -/
def behindColons (gs : List UInt16) : List Char :=
  gs.flatMap fun g => ':' :: Nat.toDigits 16 g.toNat

/-- Groups with colons between. -/
def betweenColons : List UInt16 → List Char
  | [] => []
  | g :: gs => Nat.toDigits 16 g.toNat ++ behindColons gs

theorem toList_groupsText (gs : List UInt16) : (groupsText gs).toList = betweenColons gs := by
  have hgroup : String.toList ∘ groupText = fun g : UInt16 => Nat.toDigits 16 g.toNat :=
    funext fun g => String.toList_ofList
  rw [groupsText, String.toList_intercalate, List.map_map, hgroup]
  induction gs with
  | nil => rfl
  | cons g gs ih =>
    cases gs with
    | nil => simp [betweenColons, behindColons]
    | cons g' gs =>
      rw [List.map_cons] at ih
      rw [List.map_cons, List.map_cons, List.intercalate_cons_cons, ih]
      simp [betweenColons, behindColons]

/-- What may follow groups: a bracket, or two colons. -/
def EndsGroups (rest : List Char) : Prop :=
  (∃ t, rest = ']' :: t) ∨ ∃ t, rest = ':' :: ':' :: t

theorem endsDigits_behindColons (hrest : EndsGroups rest) (gs : List UInt16) :
    ∃ c t, behindColons gs ++ rest = c :: t ∧ c ≠ '.' ∧ digitIn? 16 c = none ∧
      digitIn? 10 c = none := by
  cases gs with
  | nil =>
    rcases hrest with ⟨t, rfl⟩ | ⟨t, rfl⟩
    · exact ⟨']', t, rfl, by decide, by decide, by decide⟩
    · exact ⟨':', ':' :: t, rfl, by decide, by decide, by decide⟩
  | cons g gs => exact ⟨':', _, rfl, by decide, by decide, by decide⟩

/-- Groups are not taken beyond their end. -/
theorem takeGroups_end (hrest : EndsGroups rest) (first : Bool) (n : ℕ) :
    takeGroups first n rest = ([], false, rest) := by
  have hnothing : ∀ s, (takeColon first rest) = some s →
      takeV4 s = none ∧ takeBelow UInt16.size 16 (some 4) true s = none := by
    intro s hs
    have hstart : ∃ c t, s = c :: t ∧ c ≠ '.' ∧ digitIn? 16 c = none ∧ digitIn? 10 c = none := by
      rcases hrest with ⟨t, rfl⟩ | ⟨t, rfl⟩ <;> cases first
      · simp [takeColon, takeChar] at hs
      · exact ⟨']', t, (Option.some.inj hs).symm, by decide, by decide, by decide⟩
      · exact ⟨':', t, (Option.some.inj hs).symm, by decide, by decide, by decide⟩
      · exact ⟨':', ':' :: t, (Option.some.inj hs).symm, by decide, by decide, by decide⟩
    obtain ⟨c, t, rfl, hpoint, hhex, hdecimal⟩ := hstart
    constructor
    · refine takeV4_eq_none ?_
      rw [List.dropWhile_cons, hdecimal]
      rintro d ⟨⟩
      exact hpoint
    · rw [takeBelow, takeNumber_eq_none (endsDigits_cons hhex t)]
      rfl
  cases n with
  | zero => rfl
  | succ n =>
    cases hcolon : takeColon first rest with
    | none => simp [takeGroups, hcolon]
    | some s =>
      obtain ⟨hv4, hbelow⟩ := hnothing s hcolon
      simp [takeGroups, hcolon, hv4, hbelow]

/-- One group is taken where another one or the end follows. -/
theorem takeGroups_cons (first : Bool) (n : ℕ) (g : UInt16) {s : List Char} {c : Char}
    (hpoint : c ≠ '.') (hhex : digitIn? 16 c = none) (hdecimal : digitIn? 10 c = none) :
    takeGroups first (n + 1)
        ((if first then [] else [':']) ++ (Nat.toDigits 16 g.toNat ++ c :: s)) =
      (g :: (takeGroups false n (c :: s)).1, (takeGroups false n (c :: s)).2) := by
  have hcolon : takeColon first
      ((if first then [] else [':']) ++ (Nat.toDigits 16 g.toNat ++ c :: s)) =
        some (Nat.toDigits 16 g.toNat ++ c :: s) := by
    cases first <;> rfl
  have hlt : g.toNat < UInt16.size := g.toNat_lt
  have hlength : ∀ k ∈ some 4, (Nat.toDigits 16 g.toNat).length ≤ k := by
    rintro k ⟨⟩
    rw [Nat.length_toDigits_le_iff (by decide) (by decide)]
    exact Nat.lt_of_lt_of_le hlt (by decide)
  have hgroup : takeBelow UInt16.size 16 (some 4) true (Nat.toDigits 16 g.toNat ++ c :: s) =
      some (g.toNat, c :: s) :=
    takeBelow_toDigits (by decide) (by decide) hlt hlength (endsDigits_cons hhex s)
  have hv4 : takeV4 (Nat.toDigits 16 g.toNat ++ c :: s) = none := by
    refine takeV4_eq_none fun d hd => ?_
    -- What follows the decimal digits is a hexadecimal one, or the end of the group.
    rw [List.dropWhile_append] at hd
    split_ifs at hd with hempty
    · rw [List.dropWhile_cons, hdecimal] at hd
      obtain rfl := Option.some.inj hd
      exact hpoint
    · obtain ⟨e, t, hdrop⟩ := List.exists_cons_of_ne_nil fun hnil =>
        hempty (List.isEmpty_iff.mpr hnil)
      rw [hdrop, List.cons_append] at hd
      obtain rfl : e = d := Option.some.inj hd
      have hmem : e ∈ Nat.toDigits 16 g.toNat :=
        (List.dropWhile_sublist _).subset (hdrop ▸ List.mem_cons_self)
      rintro rfl
      exact absurd (isSome_of_mem_toDigits (by decide) (by decide) _ hmem) (by decide)
  rw [takeGroups, hcolon]
  simp only [Option.bind_some, hv4, hgroup, ite_self, UInt16.ofNat_toNat]

theorem takeGroups_behindColons (hrest : EndsGroups rest) {gs : List UInt16} {n : ℕ}
    (hn : gs.length ≤ n) : takeGroups false n (behindColons gs ++ rest) = (gs, false, rest) := by
  induction gs generalizing n with
  | nil => exact takeGroups_end hrest false n
  | cons g gs ih =>
    obtain ⟨n, rfl⟩ : ∃ k, n = k + 1 := ⟨n - 1, by rw [List.length_cons] at hn; omega⟩
    have hgs : gs.length ≤ n := by simpa using hn
    obtain ⟨c, t, hnext, hpoint, hhex, hdecimal⟩ := endsDigits_behindColons hrest gs
    have hgroup := takeGroups_cons false n g hpoint hhex hdecimal (s := t)
    rw [← hnext, ih hgs] at hgroup
    rw [← hgroup]
    congr 1
    simp [behindColons]

/-- Groups with colons between are read back. -/
theorem takeGroups_betweenColons (hrest : EndsGroups rest) {gs : List UInt16} {n : ℕ}
    (hn : gs.length ≤ n) : takeGroups true n (betweenColons gs ++ rest) = (gs, false, rest) := by
  cases gs with
  | nil => exact takeGroups_end hrest true n
  | cons g gs =>
    obtain ⟨n, rfl⟩ : ∃ k, n = k + 1 := ⟨n - 1, by rw [List.length_cons] at hn; omega⟩
    have hgs : gs.length ≤ n := by simpa using hn
    obtain ⟨c, t, hnext, hpoint, hhex, hdecimal⟩ := endsDigits_behindColons hrest gs
    have hgroup := takeGroups_cons true n g hpoint hhex hdecimal (s := t)
    rw [← hnext, takeGroups_behindColons hrest hgs] at hgroup
    rw [← hgroup, betweenColons, List.append_assoc]
    rfl

/-! ## Runs of zeros -/

/-- Elements in front that are all zero. -/
theorem eq_replicate_append_drop {gs : List UInt16} {n : ℕ} (h : n ≤ zeroRun gs) :
    gs = List.replicate n 0 ++ gs.drop n := by
  induction gs generalizing n with
  | nil =>
    obtain rfl : n = 0 := Nat.le_zero.mp h
    rfl
  | cons g gs ih =>
    cases n with
    | zero => rfl
    | succ n =>
      have hg : g = 0 := by
        by_contra hne
        simp [zeroRun, hne] at h
      subst hg
      have hrest : n ≤ zeroRun gs := by simpa [zeroRun] using h
      rw [List.replicate_succ, List.cons_append, List.drop_succ_cons, ← ih hrest]

theorem longestZeroRun_spec (gs : List UInt16) :
    (longestZeroRun gs).2 ≤ zeroRun (gs.drop (longestZeroRun gs).1) := by
  have hall : ∀ (is : List ℕ) (best : ℕ × ℕ), best.2 ≤ zeroRun (gs.drop best.1) →
      (is.foldl (fun best i => let n := zeroRun (gs.drop i); if best.2 < n then (i, n) else best)
        best).2 ≤ zeroRun (gs.drop (is.foldl
          (fun best i => let n := zeroRun (gs.drop i); if best.2 < n then (i, n) else best)
            best).1) := by
    intro is
    induction is with
    | nil => exact fun _ h => h
    | cons i is ih =>
      intro best hbest
      rw [List.foldl_cons]
      refine ih _ ?_
      dsimp only
      split_ifs
      · exact le_rfl
      · exact hbest
  exact hall _ _ (Nat.zero_le _)

/-- The groups of an address around the run of zeros that its text leaves out. -/
theorem eq_around_longestZeroRun (gs : List UInt16) :
    gs = gs.take (longestZeroRun gs).1 ++ (List.replicate (longestZeroRun gs).2 0 ++
      gs.drop ((longestZeroRun gs).1 + (longestZeroRun gs).2)) := by
  have hzeros := eq_replicate_append_drop (longestZeroRun_spec gs)
  rw [List.drop_drop] at hzeros
  rw [← hzeros, List.take_append_drop]

/-! ## The three shapes of a text -/

theorem takeV6_betweenColons (hrest : EndsGroups rest) {gs : List UInt16}
    (hlength : gs.length = 8) :
    takeV6 (betweenColons gs ++ rest) = (ofGroups? gs).map fun ip => (ip, rest) := by
  rw [takeV6, takeGroups_betweenColons hrest (Nat.le_of_eq hlength)]
  exact if_pos hlength

/-- Groups around a run of zeros that is left out. -/
theorem takeV6_around (hrest : EndsGroups rest) {front back : List UInt16} {n : ℕ}
    (hlength : front.length + n + back.length = 8) (hn : 0 < n) :
    takeV6 (betweenColons front ++ ':' :: ':' :: (betweenColons back ++ rest)) =
      (ofGroups? (front ++ (List.replicate n 0 ++ back))).map fun ip => (ip, rest) := by
  have hcolons : EndsGroups (':' :: ':' :: (betweenColons back ++ rest)) := Or.inr ⟨_, rfl⟩
  have hfront := takeGroups_betweenColons hcolons (show front.length ≤ 8 by omega)
  have hback := takeGroups_betweenColons hrest (show back.length ≤ 7 - front.length by omega)
  have hfew : ¬front.length = 8 := by omega
  have hzeros : 8 - front.length - back.length = n := by omega
  rw [takeV6, hfront]
  simp only [hfew, if_false, Bool.false_eq_true, takeChar, if_true, Option.bind_eq_bind,
    Option.bind_some, hback, hzeros, List.append_assoc]
  cases ofGroups? (front ++ (List.replicate n 0 ++ back)) <;> rfl

/-- A version 4 address behind a fixed front. -/
theorem takeV6_mapped (hrest : EndsGroups rest) (g h : UInt16) :
    takeV6 ("::ffff:".toList ++
      ((v4Text (g / 256).toUInt8 g.toUInt8 (h / 256).toUInt8 h.toUInt8).toList ++ rest)) =
        some (.v6 0 0 0 0 0 0xFFFF g h, rest) := by
  have hdecimal : EndsDigits 10 rest := by
    rcases hrest with ⟨t, rfl⟩ | ⟨t, rfl⟩ <;> exact endsDigits_cons (by decide) t
  have hcolons (s : List Char) : EndsGroups (':' :: ':' :: s) := Or.inr ⟨s, rfl⟩
  let tail := (v4Text (g / 256).toUInt8 g.toUInt8 (h / 256).toUInt8 h.toUInt8).toList ++ rest
  have hv4 : takeGroups false 6 (':' :: tail) = ([g, h], true, rest) := by
    have hcolon : takeColon false (':' :: tail) = some tail := rfl
    rw [takeGroups, hcolon, if_pos (by decide), Option.bind_some, takeV4_text _ _ _ _ hdecimal]
    simp only [ofNat_toUInt8_div]
  have hgroup : takeGroups true 7 ("ffff:".toList ++ tail) = ([0xFFFF, g, h], true, rest) := by
    have hcons := takeGroups_cons true 6 0xFFFF (c := ':') (by decide) (by decide) (by decide)
      (s := tail)
    rw [hv4] at hcons
    rw [← hcons]
    rfl
  have htext : "::ffff:".toList ++ tail = ':' :: ':' :: ("ffff:".toList ++ tail) := rfl
  rw [show "::ffff:".toList ++ _ = _ from htext, takeV6, takeGroups_end (hcolons _)]
  simp only [List.length_nil, takeChar, if_true, Option.bind_eq_bind, Option.bind_some,
    Nat.sub_zero, hgroup]
  rfl

/-- The text of a version 6 address has all groups, or the groups around a run of zeros, or it ends
in a version 4 address. -/
theorem text_cases (a b c d e f g h : UInt16) :
    (v6 a b c d e f g h).text.toList = betweenColons [a, b, c, d, e, f, g, h] ∨
    (∃ front n back, [a, b, c, d, e, f, g, h] = front ++ (List.replicate n 0 ++ back) ∧ 1 < n ∧
      (v6 a b c d e f g h).text.toList =
        betweenColons front ++ ':' :: ':' :: betweenColons back) ∨
    ∃ g' h', v6 a b c d e f g h = .v6 0 0 0 0 0 0xFFFF g' h' ∧ (v6 a b c d e f g h).text.toList =
      "::ffff:".toList ++
        (v4Text (g' / 256).toUInt8 g'.toUInt8 (h' / 256).toUInt8 h'.toUInt8).toList := by
  unfold text
  split
  case h_1 heq => exact absurd heq Ip.noConfusion
  case h_2 g' h' heq => exact Or.inr (Or.inr ⟨g', h', heq, String.toList_append⟩)
  case h_3 heq =>
    rw [← heq]
    dsimp only [groups]
    split_ifs with hlong
    · refine Or.inr (Or.inl ⟨_, _, _, eq_around_longestZeroRun _, hlong, ?_⟩)
      simp [toList_groupsText]
    · exact Or.inl (toList_groupsText _)

/-- The text of a version 6 address is read back. -/
theorem takeV6_text (hrest : EndsGroups rest) (a b c d e f g h : UInt16) :
    takeV6 ((v6 a b c d e f g h).text.toList ++ rest) = some (.v6 a b c d e f g h, rest) := by
  obtain htext | ⟨front, n, back, hgroups, hn, htext⟩ | ⟨g', h', heq, htext⟩ :=
    text_cases a b c d e f g h
  · rw [htext, takeV6_betweenColons hrest rfl]
    rfl
  · have hlength : front.length + n + back.length = 8 := by
      simpa [Nat.add_assoc] using (congrArg List.length hgroups).symm
    rw [htext, List.append_assoc, List.cons_append, List.cons_append,
      takeV6_around hrest hlength (Nat.zero_lt_of_lt hn), ← hgroups]
    rfl
  · rw [htext, List.append_assoc, heq]
    exact takeV6_mapped hrest g' h'

theorem mem_text (a b c d e f g h : UInt16) : ':' ∈ (v6 a b c d e f g h).text.toList := by
  obtain htext | ⟨front, n, back, -, -, htext⟩ | ⟨g', h', -, htext⟩ :=
    text_cases a b c d e f g h <;> rw [htext]
  · simp [betweenColons, behindColons]
  · simp
  · simp

/-- The text of a version 6 address does not begin with a bracket. -/
theorem head?_text (a b c d e f g h : UInt16) :
    (v6 a b c d e f g h).text.toList.head? ≠ some '[' := by
  have hgroups (gs : List UInt16) {s : List Char} (hs : s.head? ≠ some '[') :
      (betweenColons gs ++ s).head? ≠ some '[' := by
    cases gs with
    | nil => exact hs
    | cons g gs =>
      obtain ⟨c, t, hdigits⟩ := List.exists_cons_of_ne_nil
        (Nat.toDigits_ne_nil (b := 16) (n := g.toNat))
      have hc := isSome_of_mem_toDigits (by decide) (by decide) c (hdigits ▸ List.mem_cons_self)
      rw [betweenColons, hdigits]
      rintro ⟨⟩
      exact absurd hc (by decide)
  obtain htext | ⟨front, n, back, -, -, htext⟩ | ⟨g', h', -, htext⟩ :=
    text_cases a b c d e f g h <;> rw [htext]
  · simpa using hgroups [a, b, c, d, e, f, g, h] (s := []) (by simp)
  · exact hgroups front (by simp)
  · simp

end V6

end Ip

/-! ## Socket addresses -/

namespace SocketAddress

theorem takePort_text (port : UInt16) :
    takePort (':' :: Nat.toDigits 10 port.toNat) = some (port, []) := by
  have hlt : port.toNat < UInt16.size := port.toNat_lt
  have hend : Ip.EndsDigits 10 [] := by
    rintro c ⟨⟩
  have hport : Ip.takeBelow UInt16.size 10 none true (Nat.toDigits 10 port.toNat ++ []) =
      some (port.toNat, []) :=
    Ip.takeBelow_toDigits (by decide) (by decide) hlt (by rintro k ⟨⟩) hend
  rw [List.append_nil] at hport
  simp only [takePort, Ip.takeChar, if_true, Option.bind_eq_bind, Option.bind_some, hport,
    Option.pure_def]
  exact congrArg (fun port => some (port, [])) UInt16.ofNat_toNat

/-- A version 4 address with a port is read back. -/
theorem takeV4_text (a b c d : UInt8) (port : UInt16) :
    takeV4 ((Ip.v4Text a b c d).toList ++ ':' :: Nat.toDigits 10 port.toNat) =
      some (⟨.v4 a b c d, port⟩, []) := by
  have hend : Ip.EndsDigits 10 (':' :: Nat.toDigits 10 port.toNat) :=
    Ip.endsDigits_cons (by decide) _
  rw [takeV4, Ip.takeV4_text a b c d hend]
  simp only [Option.bind_eq_bind, Option.bind_some, takePort_text, Option.pure_def]

/-- A version 6 address in brackets with a port is read back. -/
theorem takeV6_text (a b c d e f g h : UInt16) (port : UInt16) :
    takeV6 ('[' :: ((Ip.v6 a b c d e f g h).text.toList ++
      ']' :: ':' :: Nat.toDigits 10 port.toNat)) = some (⟨.v6 a b c d e f g h, port⟩, []) := by
  have hend : Ip.EndsGroups (']' :: ':' :: Nat.toDigits 10 port.toNat) := Or.inl ⟨_, rfl⟩
  have hscope (s : List Char) : skipScope (']' :: s) = ']' :: s := rfl
  simp only [takeV6, Ip.takeChar, if_true, Option.bind_eq_bind, Option.bind_some,
    Ip.takeV6_text hend, hscope, takePort_text, Option.pure_def]

/-- An address with a port is read back. -/
theorem parse?_withPort (ip : Ip) (port : UInt16) :
    parse? (withPort ip.text port) = some ⟨ip, port⟩ := by
  cases ip with
  | v4 a b c d =>
    have hcolon : ':' ∉ (Ip.v4Text a b c d).toList := Ip.not_mem_v4Text a b c d
    have htext : (withPort (Ip.v4 a b c d).text port).toList =
        (Ip.v4Text a b c d).toList ++ ':' :: Nat.toDigits 10 port.toNat := by
      simp [withPort, Ip.text, hcolon]
    rw [parse?, htext, takeV4_text]
    rfl
  | v6 a b c d e f g h =>
    have hcolon := Ip.mem_text a b c d e f g h
    have hbracket := Ip.head?_text a b c d e f g h
    have htext : (withPort (Ip.v6 a b c d e f g h).text port).toList =
        '[' :: ((Ip.v6 a b c d e f g h).text.toList ++
          ']' :: ':' :: Nat.toDigits 10 port.toNat) := by
      simp [withPort, hcolon, hbracket]
    have hv4 : takeV4 ('[' :: ((Ip.v6 a b c d e f g h).text.toList ++
        ']' :: ':' :: Nat.toDigits 10 port.toNat)) = none := by
      rfl
    rw [parse?, htext, hv4, takeV6_text]
    rfl

end SocketAddress

/-! ## Wildcards -/

/-- Whether an address is a socket address whose host stands for every address of the machine. -/
def isWildcard (address : String) : Bool :=
  (SocketAddress.parse? address).any fun a => a.ip.isUnspecified

/-- An address that is pinned to a host of its own is no wildcard. -/
theorem isWildcard_pinned {ip : Ip} (h : ip.isUnspecified = false) (address : String) :
    isWildcard (pinned address ip.text) = false := by
  unfold pinned
  split
  case h_1 a ha =>
    split_ifs with hwildcard
    · rw [isWildcard, SocketAddress.parse?_withPort]
      exact h
    · rw [isWildcard, ha]
      exact Bool.eq_false_iff.mpr hwildcard
  case h_2 hnone =>
    rw [isWildcard, hnone]
    rfl

end PeerGateway
