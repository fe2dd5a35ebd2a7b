import PeerGateway.Http.Url
import PeerGateway.Proofs.Text.Bytes
import PeerGateway.Proofs.Text.Parts
import PeerGateway.Proofs.Text.Percent

/-!
# How web addresses are read

Lemmas on the parts of a web address : the segments of a path (`Url.follow`), the host and port in
front of it (`Url.ofAuthority?_append`), and the characters that count (`Url.significant_append`).
The path of an address is split into its segments again (`Url.splitAtChar_pathOf`).
-/

namespace PeerGateway

namespace Http.Url

/-! ## Paths -/

section Path

variable {parts done : List (List Char)} {x : List Char}

theorem follow_of_isUp (h : isUp x = true) : follow done (x :: parts) =
    follow (done.dropLast ++ if parts.isEmpty then [[]] else []) parts := by
  simp only [follow, h, if_true]

theorem follow_of_isHere (hup : isUp x = false) (h : isHere x = true) :
    follow done (x :: parts) = follow (done ++ if parts.isEmpty then [[]] else []) parts := by
  simp only [follow, hup, h, Bool.false_eq_true, if_true, if_false]

theorem follow_of_neither (hup : isUp x = false) (hhere : isHere x = false) :
    follow done (x :: parts) = follow (done ++ [x]) parts := by
  simp only [follow, hup, hhere, Bool.false_eq_true, if_false]

/-- Segments that are gone through after the first ones are segments of the path, or empty. -/
theorem follow_drop {P : List Char → Prop} {k : ℕ} (hnil : P [])
    (hdone : ∀ s ∈ done.drop k, P s) (hparts : ∀ s ∈ parts, P s) :
    ∀ s ∈ (follow done parts).drop k, P s := by
  have happend {xs ys : List (List Char)} (hxs : ∀ s ∈ xs.drop k, P s) (hys : ∀ s ∈ ys, P s) :
      ∀ s ∈ (xs ++ ys).drop k, P s := by
    intro s hs
    rw [List.drop_append] at hs
    rcases List.mem_append.mp hs with hs | hs
    · exact hxs s hs
    · exact hys s (List.mem_of_mem_drop hs)
  induction parts generalizing done with
  | nil => exact hdone
  | cons x rest ih =>
    have hrest : ∀ s ∈ rest, P s := fun s hs => hparts s (List.mem_cons_of_mem _ hs)
    have hending : ∀ s ∈ (if rest.isEmpty then [[]] else [] : List (List Char)), P s := by
      split_ifs <;> simp [hnil]
    cases hup : isUp x with
    | true =>
      rw [follow_of_isUp hup]
      refine ih (happend (fun s hs => hdone s ?_) hending) hrest
      exact ((List.dropLast_sublist done).drop k).subset hs
    | false =>
      cases hhere : isHere x with
      | true =>
        rw [follow_of_isHere hup hhere]
        exact ih (happend hdone hending) hrest
      | false =>
        rw [follow_of_neither hup hhere]
        refine ih (happend hdone fun s hs => ?_) hrest
        exact List.mem_singleton.mp hs ▸ hparts x List.mem_cons_self

/-- The segments of a path. -/
def segments (s : List Char) : List (List Char) :=
  follow [] (splitAtChar '/' ((s.map fun c => if c = '\\' then '/' else c).drop 1))

theorem pathOf_eq (s : List Char) : pathOf s =
    String.ofList ((segments s).flatMap fun x => '/' :: Percent.encoded isPathSpecial x) :=
  rfl

theorem not_mem_of_mem_segments {s : List Char} (h : x ∈ segments s) : '/' ∉ x := by
  have hall : ∀ x ∈ (segments s).drop 0, '/' ∉ x :=
    follow_drop List.not_mem_nil (by simp) fun _ hpart => not_mem_of_mem_splitAtChar hpart
  exact hall x h

/-- What is encoded in a path has no slash. -/
theorem slash_not_mem_encoded {s : List Char} (h : '/' ∉ s) :
    '/' ∉ Percent.encoded isPathSpecial s := by
  have hdigit : ∀ i < 16, '/' ≠ (Nat.digitChar i).toUpper := by decide
  intro hmem
  obtain ⟨c, hc, hmem⟩ := List.mem_flatMap.mp hmem
  split_ifs at hmem
  · obtain ⟨b, -, hmem⟩ := List.mem_flatMap.mp hmem
    have hlt : b.toNat < 256 := b.toNat_lt
    simp only [Percent.encodedByte, List.map_cons, List.map_nil, List.mem_cons, List.not_mem_nil,
      or_false] at hmem
    rcases hmem with hmem | hmem | hmem
    · exact absurd hmem (by decide)
    · exact hdigit _ (by omega) hmem
    · exact hdigit _ (by omega) hmem
  · exact h (List.mem_singleton.mp hmem ▸ hc)

/-- The path of an address is split into its segments again, each with some characters encoded. -/
theorem splitAtChar_pathOf (s : List Char) : splitAtChar '/' (pathOf s).toList =
    [] :: (segments s).map (Percent.encoded isPathSpecial) := by
  have hflat : (pathOf s).toList =
      ((segments s).map (Percent.encoded isPathSpecial)).flatMap ('/' :: ·) := by
    rw [pathOf_eq, String.toList_ofList, List.flatMap_map]
  rw [hflat, splitAtChar_flatMap]
  intro part hpart
  obtain ⟨x, hx, rfl⟩ := List.mem_map.mp hpart
  exact slash_not_mem_encoded (not_mem_of_mem_segments hx)

theorem isFree_of_isPathSpecial (c : Char) (h : isPathSpecial c = true) (_ : c.toNat ≤ 0x7F) :
    Percent.IsFree (UInt8.ofNat c.toNat) := by
  have hall : (" \"#<>?`\x7b\x7d".toList.all fun c =>
      UInt8.ofNat c.toNat ≠ Bytes.ascii '%' && Bytes.hexValue? (UInt8.ofNat c.toNat) = none) =
        true := by decide
  have hc := List.all_eq_true.mp hall c (List.contains_iff_mem.mp h)
  rwa [Bool.and_eq_true, decide_eq_true_iff, decide_eq_true_iff] at hc

/-- A segment stands for the same after it was encoded. -/
theorem decoded_encoded_segment (s : List Char) :
    Percent.decoded (Bytes.ofChars (Percent.encoded isPathSpecial s)) =
      Percent.decoded (Bytes.ofChars s) :=
  Percent.decoded_encoded isFree_of_isPathSpecial s

end Path

/-! ## Hosts and ports -/

/-- The host and port that stand in front of a path. -/
def place? (s : List Char) : Option (Host × ℕ) := do
  let (host, port) := splitHost false (withoutUser s)
  return (← Host.parse? host, ← port? port)

/-- The host and port of an address are read on their own. -/
theorem ofAuthority?_append {a s : List Char} (ha : ∀ c ∈ a, endsHost c = false)
    (hs : ∀ c ∈ s.head?, endsHost c = true) : ofAuthority? (a ++ s) =
      (place? a).map fun p =>
        let rest := s.takeWhile (· ≠ '#')
        { host := p.1, port := p.2, path := pathOf (rest.takeWhile (· ≠ '?'))
          query := match rest.dropWhile (· ≠ '?') with
            | [] => none
            | _ :: q => some (String.ofList (Percent.encoded isQuerySpecial q)) } := by
  have hend : s.takeWhile (fun c => !endsHost c) = [] ∧ s.dropWhile (fun c => !endsHost c) = s := by
    cases s with
    | nil => exact ⟨rfl, rfl⟩
    | cons c s =>
      have hc : endsHost c = true := hs c rfl
      simp [hc]
  have hfront : ∀ c ∈ a, (!endsHost c) = true := fun c hc => by simp [ha c hc]
  have htake : (a ++ s).takeWhile (fun c => !endsHost c) = a := by
    rw [List.takeWhile_append_of_pos hfront, hend.1, List.append_nil]
  have hdrop : (a ++ s).dropWhile (fun c => !endsHost c) = s := by
    rw [List.dropWhile_append_of_pos hfront, hend.2]
  unfold ofAuthority? place?
  rw [htake, hdrop]
  dsimp only
  cases Host.parse? (splitHost false (withoutUser a)).1 with
  | none => rfl
  | some host => cases port? (splitHost false (withoutUser a)).2 <;> rfl

/-! ## Characters that count -/

/-- A character that does not count at the ends. -/
def isEdge (c : Char) : Bool := c.toNat ≤ 0x20

/-- A character that counts in the middle. -/
def counts (c : Char) : Bool := c ≠ '\t' && c ≠ '\n' && c ≠ '\r'

/-- What counts of the characters at the end of an address. -/
def significantEnd (s : List Char) : List Char :=
  (s.reverse.dropWhile isEdge).reverse.filter counts

theorem significant_append {s t : List Char} (hfirst : ∀ c ∈ s.head?, isEdge c = false)
    (hlast : ∀ c ∈ s.getLast?, isEdge c = false) (hne : s ≠ []) :
    significant (s ++ t) = s.filter counts ++ significantEnd t := by
  have hfront : (s ++ t).dropWhile isEdge = s ++ t := by
    cases s with
    | nil => exact absurd rfl hne
    | cons c s => rw [List.cons_append, List.dropWhile_cons, hfirst c rfl]; rfl
  have hback : s.reverse.dropWhile isEdge = s.reverse := by
    obtain ⟨s, c, rfl⟩ := List.eq_nil_or_concat s |>.resolve_left hne
    have hc : isEdge c = false := hlast c (by simp)
    rw [List.concat_eq_append, List.reverse_append, List.reverse_singleton, List.singleton_append,
      List.dropWhile_cons, hc]
    rfl
  have hinner : ((s ++ t).reverse.dropWhile isEdge).reverse =
      s ++ (t.reverse.dropWhile isEdge).reverse := by
    rw [List.reverse_append, List.dropWhile_append, hback]
    cases hrest : t.reverse.dropWhile isEdge <;> simp
  show List.filter counts (((s ++ t).dropWhile isEdge).reverse.dropWhile isEdge).reverse = _
  rw [hfront, hinner, List.filter_append]
  rfl

theorem significantEnd_sublist (s : List Char) : (significantEnd s).Sublist s := by
  have hinner : (s.reverse.dropWhile isEdge).reverse.Sublist s :=
    List.reverse_sublist.mp (by simpa using List.dropWhile_sublist _)
  exact List.filter_sublist.trans hinner

theorem significantEnd_of_all {s : List Char} (hlast : ∀ c ∈ s.getLast?, isEdge c = false)
    (hall : ∀ c ∈ s, counts c = true) : significantEnd s = s := by
  have hback : s.reverse.dropWhile isEdge = s.reverse := by
    rcases List.eq_nil_or_concat s with rfl | ⟨s, c, rfl⟩
    · rfl
    · have hc : isEdge c = false := hlast c (by simp)
      rw [List.concat_eq_append, List.reverse_append, List.reverse_singleton,
        List.singleton_append, List.dropWhile_cons, hc]
      rfl
  rw [significantEnd, hback, List.reverse_reverse, List.filter_eq_self]
  exact hall

/-- Where nothing is left out at the end, the last character counts there. -/
theorem isEdge_of_significantEnd_eq {s : List Char} (h : significantEnd s = s) :
    ∀ c ∈ s.getLast?, isEdge c = false := by
  intro c hc
  by_contra hedge
  obtain ⟨front, rfl⟩ := List.getLast?_eq_some_iff.mp hc
  have hinner : ((front ++ [c]).reverse.dropWhile isEdge).reverse.Sublist front := by
    rw [List.reverse_append, List.reverse_singleton, List.singleton_append, List.dropWhile_cons,
      if_pos (by simpa using hedge)]
    exact List.reverse_sublist.mp (by simpa using List.dropWhile_sublist _)
  have hless : (significantEnd (front ++ [c])).length ≤ front.length :=
    (List.filter_sublist.trans hinner).length_le
  rw [h, List.length_append, List.length_singleton] at hless
  omega

theorem counts_of_mem_significantEnd {s : List Char} {c : Char} (h : c ∈ significantEnd s) :
    counts c = true :=
  (List.mem_filter.mp h).2

end Http.Url

end PeerGateway
