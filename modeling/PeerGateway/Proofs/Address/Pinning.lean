import PeerGateway.Proofs.Address.Text
import PeerGateway.Node.Inbound
import PeerGateway.Settings.Basic

/-!
# Hosts in the place of wildcards

A wildcard address is pinned to a host in two ways : to the text of the sender's internet address,
or to the part of a peer's address before its last colon. Brackets make the difference for version 6
and are put only where there are none (`withPort_hostPart`), so both ways come to the same address.

The host of an address is cut off at its last colon and put in front of another port. That this
reads as the same internet address (`SocketAddress.parse?_hostPart`) holds of every text that is an
address, whatever its spelling : a reader of addresses stops at the mark behind the host, so what
stands behind the mark makes no difference to it (`Ip.StopsAt`).
-/

namespace PeerGateway

namespace Ip

/-! ## Readers that stop at a mark -/

/-- A reader takes what stands in front, and never comes beyond a mark : it comes to the same
whatever stands behind the mark. -/
structure StopsAt {α : Type} (mark : Char) (take : List Char → Option (α × List Char)) :
    Prop where
  suffix : ∀ {s a rest}, take s = some (a, rest) → rest <:+ s
  uniform : ∀ u, (∃ a v, ∀ t, take (u ++ mark :: t) = some (a, v ++ mark :: t)) ∨
    ∀ t, take (u ++ mark :: t) = none

namespace StopsAt

variable {α β : Type} {mark : Char} {take : List Char → Option (α × List Char)}

/-- What was taken up to the mark is taken up to it again, whatever follows. -/
theorem retake (h : StopsAt mark take) {s t : List Char} {a : α}
    (htake : take s = some (a, mark :: t)) :
    ∃ u, s = u ++ mark :: t ∧ ∀ t', take (u ++ mark :: t') = some (a, mark :: t') := by
  obtain ⟨u, rfl⟩ := h.suffix htake
  refine ⟨u, rfl, fun t' => ?_⟩
  rcases h.uniform u with ⟨a', v, hv⟩ | hnone
  · obtain ⟨rfl, hrest⟩ := Prod.mk.inj (Option.some.inj ((hv t).symm.trans htake))
    obtain rfl : v = [] := List.append_left_eq_self.mp hrest
    exact hv t'
  · exact nomatch (hnone t).symm.trans htake

theorem fail : StopsAt mark fun _ => (none : Option (α × List Char)) :=
  ⟨nofun, fun _ => Or.inr fun _ => rfl⟩

/-- Nothing is taken. -/
theorem ofOption (a? : Option α) : StopsAt mark fun s => a?.map fun a => (a, s) := by
  cases a? with
  | none => exact fail
  | some a =>
    refine ⟨fun h => ?_, fun u => Or.inl ⟨a, u, fun _ => rfl⟩⟩
    obtain ⟨-, rfl⟩ := Prod.mk.inj (Option.some.inj h)
    exact List.suffix_rfl

/-- One reader and then another one, or a third one where the first takes nothing. -/
theorem elim {next : α → List Char → Option (β × List Char)}
    {other : List Char → Option (β × List Char)} (h : StopsAt mark take)
    (hnext : ∀ a, StopsAt mark (next a)) (hother : StopsAt mark other) :
    StopsAt mark fun s => match take s with
      | some (a, rest) => next a rest
      | none => other s := by
  constructor
  · intro s b rest hs
    split at hs
    · rename_i a middle htake
      exact ((hnext a).suffix hs).trans (h.suffix htake)
    · exact hother.suffix hs
  · intro u
    rcases h.uniform u with ⟨a, v, hv⟩ | hnone
    · simp only [hv]
      exact (hnext a).uniform v
    · simp only [hnone]
      exact hother.uniform u

theorem bind {next : α → List Char → Option (β × List Char)} (h : StopsAt mark take)
    (hnext : ∀ a, StopsAt mark (next a)) :
    StopsAt mark fun s => (take s).bind fun x => next x.1 x.2 := by
  have helim := h.elim hnext fail
  convert helim using 2 with s
  rcases take s with - | ⟨a, rest⟩ <;> rfl

theorem filter (h : StopsAt mark take) (p : α → Bool) :
    StopsAt mark fun s => (take s).filter fun x => p x.1 := by
  have hbind := h.bind fun a => ofOption (if p a then some a else none)
  convert hbind using 2 with s
  rcases take s with - | ⟨a, rest⟩
  · rfl
  · cases hp : p a <;> simp [hp]

theorem takeChar {c : Char} (hc : c ≠ mark) (h : StopsAt mark take) :
    StopsAt mark fun s => (takeChar c s).bind take := by
  constructor
  · intro s a rest hs
    cases s with
    | nil => simp [Ip.takeChar] at hs
    | cons d s =>
      by_cases hd : d = c
      · simp only [Ip.takeChar, hd, if_true, Option.bind_some] at hs
        exact (h.suffix hs).trans (List.suffix_cons d s)
      · simp [Ip.takeChar, hd] at hs
  · intro u
    cases u with
    | nil => exact Or.inr fun t => by simp [Ip.takeChar, hc.symm]
    | cons d u =>
      by_cases hd : d = c
      · simpa [Ip.takeChar, hd] using h.uniform u
      · exact Or.inr fun t => by simp [Ip.takeChar, hd]

end StopsAt

section Readers

variable {α : Type} {mark : Char} {take : List Char → Option (α × List Char)}

/-- All digits in front are taken, and the mark is none. -/
theorem stopsAt_takeNumber {base : ℕ} {most : Option ℕ} {zeros : Bool}
    (hmark : digitIn? base mark = none) : StopsAt mark (takeNumber base most zeros) := by
  constructor
  · intro s n rest h
    rw [rest_of_takeNumber h]
    exact List.dropWhile_suffix _
  · intro u
    have htake (t : List Char) : (u ++ mark :: t).takeWhile (fun c => (digitIn? base c).isSome) =
        u.takeWhile fun c => (digitIn? base c).isSome := by
      rw [List.takeWhile_append]
      split_ifs with hall
      · rw [(List.takeWhile_prefix _).eq_of_length hall, List.takeWhile_cons, hmark]
        simp
      · rfl
    have hdrop (t : List Char) : (u ++ mark :: t).dropWhile (fun c => (digitIn? base c).isSome) =
        (u.dropWhile fun c => (digitIn? base c).isSome) ++ mark :: t := by
      rw [List.dropWhile_append]
      split_ifs with hempty
      · rw [List.isEmpty_iff.mp hempty, List.dropWhile_cons, hmark]
        rfl
      · rfl
    simp only [takeNumber, htake, hdrop]
    split_ifs
    · exact Or.inr fun _ => rfl
    · exact Or.inr fun _ => rfl
    · exact Or.inr fun _ => rfl
    · exact Or.inl ⟨_, _, fun _ => rfl⟩

theorem stopsAt_takeBelow (limit : ℕ) {base : ℕ} (most : Option ℕ) (zeros : Bool)
    (hmark : digitIn? base mark = none) : StopsAt mark (takeBelow limit base most zeros) :=
  (stopsAt_takeNumber hmark).filter fun n => decide (n < limit)

theorem stopsAt_takeByte (hmark : digitIn? 10 mark = none) : StopsAt mark takeByte := by
  have hbyte := (stopsAt_takeBelow 256 (some 3) false hmark).bind
    fun n => StopsAt.ofOption (some (UInt8.ofNat n))
  convert hbyte using 2 with s
  unfold takeByte
  cases takeBelow 256 10 (some 3) false s <;> rfl

theorem stopsAt_takeV4 (hmark : digitIn? 10 mark = none) (hpoint : '.' ≠ mark) :
    StopsAt mark takeV4 := by
  have hbyte := stopsAt_takeByte hmark
  exact hbyte.bind fun a => (hbyte.bind fun b => (hbyte.bind fun c => (hbyte.bind fun d =>
    StopsAt.ofOption (some (a, b, c, d))).takeChar hpoint).takeChar hpoint).takeChar hpoint

theorem stopsAt_takeColon (hcolon : ':' ≠ mark) (first : Bool) (h : StopsAt mark take) :
    StopsAt mark fun s => (takeColon first s).bind take := by
  cases first with
  | true => exact h
  | false => exact h.takeChar hcolon

theorem stopsAt_takeGroups (hmark : digitIn? 10 mark = none) (hhex : digitIn? 16 mark = none)
    (hpoint : '.' ≠ mark) (hcolon : ':' ≠ mark) (n : ℕ) : ∀ first,
    StopsAt mark fun s =>
      some (((takeGroups first n s).1, (takeGroups first n s).2.1),
        (takeGroups first n s).2.2) := by
  induction n with
  | zero => exact fun _ => StopsAt.ofOption (some ([], false))
  | succ n ih =>
    intro first
    have hv4 : StopsAt mark fun s => if 1 ≤ n then (takeColon first s).bind takeV4 else none := by
      split_ifs
      · exact stopsAt_takeColon hcolon first (stopsAt_takeV4 hmark hpoint)
      · exact StopsAt.fail
    have hgroup := stopsAt_takeColon hcolon first
      (stopsAt_takeBelow UInt16.size (some 4) true hhex)
    have hmore := hv4.elim
      (fun x => StopsAt.ofOption (some ([UInt16.ofNat (x.1.toNat * 256 + x.2.1.toNat),
        UInt16.ofNat (x.2.2.1.toNat * 256 + x.2.2.2.toNat)], true)))
      (hgroup.elim (fun g => (ih false).bind fun x =>
        StopsAt.ofOption (some (UInt16.ofNat g :: x.1, x.2))) (StopsAt.ofOption (some ([], false))))
    convert hmore using 2 with s
    rw [takeGroups]
    rcases if 1 ≤ n then (takeColon first s).bind takeV4 else none with - | ⟨⟨a, b, c, d⟩, rest⟩
    · rcases (takeColon first s).bind (takeBelow UInt16.size 16 (some 4) true) with - | ⟨g, rest⟩
      · rfl
      · rfl
    · rfl

/-- Takes two colons and the groups behind them, with zeros between those and the ones in front. -/
def takeBehind (front : List UInt16) (s : List Char) : Option (Ip × List Char) :=
  (takeChar ':' s).bind fun s => (takeChar ':' s).bind fun s =>
    let (back, _, s) := takeGroups true (7 - front.length) s
    (ofGroups? (front ++ List.replicate (8 - front.length - back.length) 0 ++ back)).map
      fun ip => (ip, s)

theorem takeV6_eq (s : List Char) : takeV6 s =
    let (front, mapped, s) := takeGroups true 8 s
    if front.length = 8 then (ofGroups? front).map fun ip => (ip, s)
    else if mapped then none else takeBehind front s := by
  unfold takeV6 takeBehind
  dsimp only [Option.bind_eq_bind, Option.pure_def]
  simp only [Option.map_eq_bind]
  rfl

theorem stopsAt_takeV6 (hmark : digitIn? 10 mark = none) (hhex : digitIn? 16 mark = none)
    (hpoint : '.' ≠ mark) (hcolon : ':' ≠ mark) : StopsAt mark takeV6 := by
  have hgroups := stopsAt_takeGroups hmark hhex hpoint hcolon
  have hbehind (front : List UInt16) : StopsAt mark (takeBehind front) :=
    (((hgroups (7 - front.length) true).bind fun x => StopsAt.ofOption (ofGroups?
      (front ++ List.replicate (8 - front.length - x.1.length) 0 ++ x.1))).takeChar
        hcolon).takeChar hcolon
  have hrest (x : List UInt16 × Bool) : StopsAt mark fun s =>
      if x.1.length = 8 then (ofGroups? x.1).map fun ip => (ip, s)
      else if x.2 then none else takeBehind x.1 s := by
    split_ifs
    · exact StopsAt.ofOption _
    · exact StopsAt.fail
    · exact hbehind x.1
  convert (hgroups 8 true).bind hrest using 2 with s
  exact takeV6_eq s

end Readers

end Ip

/-! ## Hosts in front of ports -/

theorem hostPart_eq {s : String} {host rest : List Char} (hs : s.toList = host ++ ':' :: rest)
    (hrest : ':' ∉ rest) : hostPart s = String.ofList host := by
  have hbehind : ∀ c ∈ rest.reverse, decide (c ≠ ':') = true := fun c hc =>
    decide_eq_true fun heq => hrest (heq ▸ List.mem_reverse.mp hc)
  have hdrop : s.toList.reverse.dropWhile (fun c => decide (c ≠ ':')) = ':' :: host.reverse := by
    rw [hs, List.reverse_append, List.reverse_cons, List.append_assoc,
      List.dropWhile_append_of_pos hbehind]
    rfl
  unfold hostPart
  simp only [hdrop, List.reverse_reverse]

namespace SocketAddress

theorem stopsAt_skipScope {mark : Char} (hmark : digitIn? 10 mark = none) (hscope : '%' ≠ mark) :
    Ip.StopsAt mark fun s => some ((), skipScope s) := by
  have hnumber := (Ip.stopsAt_takeBelow UInt32.size none true hmark).takeChar hscope
  have hskip := hnumber.elim (fun _ => Ip.StopsAt.ofOption (some ()))
    (Ip.StopsAt.ofOption (some ()))
  convert hskip using 2 with s
  unfold skipScope
  rcases (Ip.takeChar '%' s).bind (Ip.takeBelow UInt32.size 10 none true) with - | ⟨n, rest⟩ <;> rfl

/-- A port stands behind a colon, and there is no other one. -/
theorem exists_of_takePort {s : List Char} {port : UInt16} (h : takePort s = some (port, [])) :
    ∃ digits, s = ':' :: digits ∧ ':' ∉ digits := by
  simp only [takePort, Option.bind_eq_bind, Option.bind_eq_some_iff] at h
  obtain ⟨digits, hcolon, ⟨n, rest⟩, hbelow, hport⟩ := h
  obtain ⟨-, rfl⟩ := Prod.mk.inj (Option.some.inj hport)
  have hdigits := Ip.rest_of_takeNumber (Option.filter_eq_some_iff.mp hbelow).1
  have hall := List.dropWhile_eq_nil_iff.mp hdigits.symm
  cases s with
  | nil => cases hcolon
  | cons c s =>
    rw [Ip.takeChar] at hcolon
    split_ifs at hcolon with hc
    obtain rfl := Option.some.inj hcolon
    exact ⟨s, hc ▸ rfl, fun hmem => absurd (hall ':' hmem) (by decide)⟩

/-- Takes a version 6 address behind its opening bracket, with a scope if there is one. -/
def takeBracketed (s : List Char) : Option (Ip × List Char) :=
  (Ip.takeChar '[' s).bind fun s => (Ip.takeV6 s).map fun x => (x.1, skipScope x.2)

theorem takeV6_eq (s : List Char) : takeV6 s =
    (takeBracketed s).bind fun x => (Ip.takeChar ']' x.2).bind fun s =>
      (takePort s).map fun y => (⟨x.1, y.1⟩, y.2) := by
  unfold takeV6 takeBracketed
  rcases Ip.takeChar '[' s with - | s
  · rfl
  · simp only [Option.bind_eq_bind, Option.bind_some]
    rcases Ip.takeV6 s with - | ⟨ip, s⟩ <;> simp only [Option.map_eq_bind] <;> rfl

theorem stopsAt_takeBracketed : Ip.StopsAt ']' takeBracketed := by
  have hv6 : Ip.StopsAt ']' Ip.takeV6 :=
    Ip.stopsAt_takeV6 (by decide) (by decide) (by decide) (by decide)
  have hscope : Ip.StopsAt ']' fun s => some ((), skipScope s) :=
    stopsAt_skipScope (by decide) (by decide)
  have hopen : '[' ≠ ']' := by decide
  have hboth := (hv6.bind fun ip => hscope.bind fun _ =>
    Ip.StopsAt.ofOption (some ip)).takeChar hopen
  convert hboth using 2 with s
  unfold takeBracketed
  simp only [Option.map_eq_bind]
  rfl

/-- What is in brackets is no version 4 address. -/
theorem takeV4_of_takeBracketed {s : List Char} {x : Ip × List Char}
    (h : takeBracketed s = some x) : takeV4 s = none := by
  obtain ⟨rest, hbracket, -⟩ := Option.bind_eq_some_iff.mp h
  cases s with
  | nil => cases hbracket
  | cons c s =>
    rw [Ip.takeChar] at hbracket
    split_ifs at hbracket with hc
    rw [hc]
    rfl

/-- A text that is an address is a host, a colon and a port, and the host in front of another port
is read as the same internet address. -/
theorem exists_of_parse? {s : String} {a : SocketAddress} (h : parse? s = some a) :
    ∃ host digits, s.toList = host ++ ':' :: digits ∧ ':' ∉ digits ∧ ∀ (s' : String) port,
      s'.toList = host ++ ':' :: Nat.toDigits 10 port.toNat → parse? s' = some ⟨a.ip, port⟩ := by
  unfold parse? at h
  split at h
  case h_2 => cases h
  case h_1 a' htaken =>
  obtain rfl := Option.some.inj h
  rcases Option.or_eq_some_iff.mp htaken with hv4 | ⟨-, hv6⟩
  · simp only [takeV4, Option.bind_eq_bind, Option.bind_eq_some_iff] at hv4
    obtain ⟨⟨⟨b1, b2, b3, b4⟩, rest⟩, hip, ⟨p, rest'⟩, hport, ha⟩ := hv4
    obtain ⟨rfl, rfl⟩ := Prod.mk.inj (Option.some.inj ha)
    obtain ⟨digits, rfl, hdigits⟩ := exists_of_takePort hport
    have hstops : Ip.StopsAt ':' Ip.takeV4 := Ip.stopsAt_takeV4 (by decide) (by decide)
    obtain ⟨host, hhost, hretake⟩ := hstops.retake hip
    refine ⟨host, digits, hhost, hdigits, fun s' port hs' => ?_⟩
    rw [parse?, hs', takeV4, hretake]
    simp only [Option.bind_eq_bind, Option.bind_some, takePort_text, Option.pure_def]
    rfl
  · rw [takeV6_eq, Option.bind_eq_some_iff] at hv6
    obtain ⟨⟨ip, rest⟩, hip, hbehind⟩ := hv6
    obtain ⟨rest', hbracket, hend⟩ := Option.bind_eq_some_iff.mp hbehind
    obtain ⟨⟨p, rest''⟩, hport, ha⟩ := Option.map_eq_some_iff.mp hend
    obtain ⟨rfl, rfl⟩ := Prod.mk.inj ha
    obtain ⟨digits, rfl, hdigits⟩ := exists_of_takePort hport
    cases rest with
    | nil => cases hbracket
    | cons c rest =>
      rw [Ip.takeChar] at hbracket
      split_ifs at hbracket with hc
      obtain rfl := Option.some.inj hbracket
      subst hc
      obtain ⟨host, hhost, hretake⟩ := stopsAt_takeBracketed.retake hip
      refine ⟨host ++ [']'], digits, by simpa using hhost, hdigits, fun s' port hs' => ?_⟩
      have htext : s'.toList = host ++ ']' :: ':' :: Nat.toDigits 10 port.toNat := by
        simpa using hs'
      have htake := hretake (':' :: Nat.toDigits 10 port.toNat)
      rw [parse?, htext, takeV4_of_takeBracketed htake, takeV6_eq, htake]
      simp only [Option.none_or, Option.bind_some, Ip.takeChar, if_true, takePort_text,
        Option.map_some]

/-- The host of an address in front of another port reads as the same internet address. -/
theorem parse?_hostPart {s : String} {a : SocketAddress} (h : parse? s = some a) (port : UInt16) :
    parse? (hostPart s ++ ":" ++ toString port.toNat) = some ⟨a.ip, port⟩ := by
  obtain ⟨host, digits, hs, hdigits, hparse⟩ := exists_of_parse? h
  refine hparse _ port ?_
  rw [hostPart_eq hs hdigits]
  simp

end SocketAddress

/-! ## Pinning -/

theorem hostPart_append (host : String) (port : UInt16) :
    hostPart (host ++ ":" ++ toString port.toNat) = host := by
  have hdigits : ':' ∉ Nat.toDigits 10 port.toNat := fun hmem =>
    absurd (isSome_of_mem_toDigits (by decide) (by decide) ':' hmem) (by decide)
  have htext : (host ++ ":" ++ toString port.toNat).toList =
      host.toList ++ ':' :: Nat.toDigits 10 port.toNat := by
    simp
  rw [hostPart_eq htext hdigits, String.ofList_toList]

/-- A host that is cut out of an address with a port goes with any port as the host itself does. -/
theorem withPort_hostPart (host : String) (port port' : UInt16) :
    withPort (hostPart (withPort host port)) port' = withPort host port' := by
  by_cases hbare : (host.toList.contains ':' && host.toList.head? != some '[') = true
  · have hbracketed (port : UInt16) :
        withPort host port = "[" ++ host ++ "]" ++ ":" ++ toString port.toNat := by
      simp only [withPort, hbare, if_true, String.append_assoc]
      rfl
    rw [hbracketed, hostPart_append, hbracketed]
    simp [withPort]
  · have hplain (port : UInt16) : withPort host port = host ++ ":" ++ toString port.toNat := by
      simp only [withPort, hbare, Bool.false_eq_true, if_false]
    rw [hplain port, hostPart_append]

theorem pinned_of_isUnspecified {address : String} {a : SocketAddress}
    (h : SocketAddress.parse? address = some a) (hwildcard : a.ip.isUnspecified = true)
    (host : String) : pinned address host = withPort host a.port := by
  simp only [pinned, h, hwildcard, if_true]

theorem pinned_of_not_isWildcard {address : String} (h : isWildcard address = false)
    (host : String) : pinned address host = address := by
  unfold pinned
  split
  · rename_i a ha
    simp only [isWildcard, ha, Option.any_some] at h
    simp [h]
  · rfl

/-- The addresses that stand for every address of the machine, of both versions, with a port. -/
theorem parse?_wildcard (port : UInt16) :
    SocketAddress.parse? ("0.0.0.0:" ++ toString port.toNat) = some ⟨.v4 0 0 0 0, port⟩ ∧
      SocketAddress.parse? ("[::]:" ++ toString port.toNat) = some ⟨.v6 0 0 0 0 0 0 0 0, port⟩ := by
  have hv4 := SocketAddress.parse?_withPort (.v4 0 0 0 0) port
  have hv6 := SocketAddress.parse?_withPort (.v6 0 0 0 0 0 0 0 0) port
  have htext4 : (Ip.v4 0 0 0 0).text = "0.0.0.0" := by decide
  have htext6 : (Ip.v6 0 0 0 0 0 0 0 0).text = "::" := by decide
  rw [htext4] at hv4
  rw [htext6] at hv6
  exact ⟨hv4, hv6⟩

/-- Whether a host is taken from the sender of a message, as a text of its internet address, or from
the address that a peer has in the directory since it joined with a wildcard, a wildcard is pinned
to the same address. It reads as the host with the port of the wildcard and is not pinned again, and
an address that is no wildcard is left as it is. The HTTP address of a node reads as the host of its
overlay address with the HTTP port, so it is pinned to the same host at every peer. -/
theorem pinned_alike (ip : Ip) (hip : ip.isUnspecified = false) :
    (∀ (address : String) (port : UInt16) (wildcard : String),
      wildcard = "0.0.0.0:" ++ toString port.toNat ∨ wildcard = "[::]:" ++ toString port.toNat →
        pinned address (hostPart (pinned wildcard ip.text)) = pinned address ip.text) ∧
      (∀ address a, SocketAddress.parse? address = some a → a.ip.isUnspecified = true →
        SocketAddress.parse? (pinned address ip.text) = some ⟨ip, a.port⟩ ∧
          ∀ host, pinned (pinned address ip.text) host = pinned address ip.text) ∧
      (∀ address, isWildcard address = false → pinned address ip.text = address) ∧
      ∀ (s : Settings) a, SocketAddress.parse? s.overlayAddress = some a →
        SocketAddress.parse? s.httpAddress = some ⟨a.ip, s.httpPort⟩ ∧
          (a.ip.isUnspecified = true →
            SocketAddress.parse? (pinned s.httpAddress ip.text) = some ⟨ip, s.httpPort⟩) := by
  have hpinned {address : String} {a : SocketAddress}
      (ha : SocketAddress.parse? address = some a) (hwildcard : a.ip.isUnspecified = true) :
      SocketAddress.parse? (pinned address ip.text) = some ⟨ip, a.port⟩ := by
    rw [pinned_of_isUnspecified ha hwildcard, SocketAddress.parse?_withPort]
  refine ⟨fun address port wildcard hwildcard => ?_, fun address a ha hwildcard => ?_,
    fun address h => pinned_of_not_isWildcard h _, fun s a ha => ?_⟩
  · have hrecorded : pinned wildcard ip.text = withPort ip.text port := by
      obtain ⟨hv4, hv6⟩ := parse?_wildcard port
      rcases hwildcard with rfl | rfl
      · exact pinned_of_isUnspecified hv4 rfl _
      · exact pinned_of_isUnspecified hv6 rfl _
    rw [hrecorded]
    unfold pinned
    split
    · rw [withPort_hostPart]
    · rfl
  · exact ⟨hpinned ha hwildcard, pinned_of_not_isWildcard (isWildcard_pinned hip address)⟩
  · have hhttp := SocketAddress.parse?_hostPart ha s.httpPort
    exact ⟨hhttp, hpinned hhttp⟩

/-- The address of a machine for itself. -/
def Ip.loopback : Ip := .v6 0 0 0 0 0 0 0 1

/-- A version 4 wildcard in a snapshot of a peer that joined from a version 6 address. -/
theorem pinned_alike_loopback :
    Ip.loopback.isUnspecified = false ∧
      pinned "0.0.0.0:8080" (hostPart (pinned "[::]:7400" Ip.loopback.text)) =
        pinned "0.0.0.0:8080" Ip.loopback.text ∧
      SocketAddress.parse? (pinned "0.0.0.0:8080" Ip.loopback.text) = some ⟨.loopback, 8080⟩ ∧
      SocketAddress.parse? (pinned Settings.default.httpAddress Ip.loopback.text) =
        some ⟨.loopback, 8080⟩ := by
  obtain ⟨hpaths, hparse, -, hhttp⟩ := pinned_alike .loopback rfl
  have hwildcard : SocketAddress.parse? "0.0.0.0:8080" = some ⟨.v4 0 0 0 0, 8080⟩ := by decide
  have hoverlay : SocketAddress.parse? Settings.default.overlayAddress =
      some ⟨.v4 0 0 0 0, 7400⟩ := by decide
  exact ⟨rfl, hpaths "0.0.0.0:8080" 7400 "[::]:7400" (Or.inr (by decide)),
    (hparse _ _ hwildcard rfl).1, (hhttp Settings.default _ hoverlay).2 rfl⟩

end PeerGateway
