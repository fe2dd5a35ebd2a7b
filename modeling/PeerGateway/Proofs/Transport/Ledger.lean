import PeerGateway.Proofs.Lists
import PeerGateway.Proofs.Transport.Run

/-!
# The books of a connection

What was written to a connection, what came over it and how often a turn on it was given up must
agree (`Pool.Ledger`) : of the requests that wrote before the one that has its turn, each took an
arrival or gave up its turn. Turns are given so that this stays so (`Pool.Ledger.served`), and so
every event keeps the books of all connections (`Pool.Balanced.step`).

With the books in balance, a request that ends with a reply takes the one in the place of as many
requests before as did not give up their turns (`Pool.Matched`).
-/

namespace PeerGateway

namespace Pool

variable {p : Pool} {T : List Effect} {k : ℕ}

/-! ## Replies and what was written -/

/-- What was written to a connection and what came over it, when `turn` has its turn and `inbox`
was not taken yet. Of the requests before, each took an arrival or gave up its turn. -/
def Ledger (k : ℕ) (T : List Effect) (arrived : List Arrival) (turn : List PendingRequest)
    (inbox : List Arrival) : Prop :=
  ∃ done taken, written T k = done ++ turn ∧ arrived = taken ++ inbox ∧
    taken.length + givenUp T k = done.length

/-- An effect and what was done before. If it ends a request with a reply, the reply came over a
connection to which this request was the last one to write. It is the one that the remote end sent
there in the place of as many requests before as did not give up their turns. -/
def Effect.MatchedAfter (A : ℕ → List Arrival) (before : List Effect) (x : Effect) : Prop :=
  ∀ e r, x = .finish e (.ok r) → ∃ k others, written before k = others ++ [e] ∧
    givenUp before k ≤ others.length ∧
    (A k)[others.length - givenUp before k]? = some (.message r)

/-- Every reply that a request ended with is matched. -/
def Matched (T : List Effect) (A : ℕ → List Arrival) : Prop :=
  ∀ before x after, T = before ++ x :: after → x.MatchedAfter A before

theorem Matched.snoc {A : ℕ → List Arrival} (h : Matched T A) {x : Effect}
    (hx : x.MatchedAfter A T) : Matched (T ++ [x]) A :=
  forall_split_concat h hx

/-- An effect that ends no request with a reply needs no match. -/
theorem Matched.skip {A : ℕ → List Arrival} (h : Matched T A) {x : Effect}
    (hx : ∀ e r, x ≠ .finish e (.ok r)) : Matched (T ++ [x]) A :=
  h.snoc fun e r heq => absurd heq (hx e r)

/-- Requests that end with errors take no reply. -/
theorem Matched.append_errors {A : ℕ → List Arrival} (h : Matched T A) (error : NetworkError)
    (gone : List PendingRequest) :
    Matched (T ++ gone.map fun e => .finish e (.error error)) A := by
  induction gone generalizing T with
  | nil => simpa using h
  | cons e gone ih =>
    have := ih (h.skip (x := .finish e (.error error)) (by simp))
    simpa using this

/-- More arrivals change no match. -/
theorem Matched.mono {A A' : ℕ → List Arrival} (h : Matched T A) (hA : ∀ k, A k <+: A' k) :
    Matched T A' := by
  intro before x after heq e r hx
  obtain ⟨k, others, hwritten, hle, hr⟩ := h before x after heq e r hx
  obtain ⟨more, hmore⟩ := hA k
  have hlt := (List.getElem?_eq_some_iff.mp hr).1
  exact ⟨k, others, hwritten, hle, by rw [← hmore, List.getElem?_append_left hlt, hr]⟩

theorem message_of_reply {a : Arrival} {address : String} {r : Message}
    (h : a.reply address = .ok r) : a = .message r := by
  cases a <;> simp_all [Arrival.reply]

/-- A request that takes an arrival in its turn is matched. -/
theorem Matched.take {A : ℕ → List Arrival} (h : Matched T A) {e : PendingRequest}
    {done : List PendingRequest} {taken inbox : List Arrival} {a : Arrival}
    (hwritten : written T k = done ++ [e]) (harrived : A k = taken ++ a :: inbox)
    (hcount : taken.length + givenUp T k = done.length) :
    Matched (T ++ [.finish e (a.reply e.address)]) A := by
  refine h.snoc fun e' r hx => ?_
  obtain ⟨rfl, hr⟩ := Effect.finish.inj hx
  obtain rfl := message_of_reply hr
  refine ⟨k, done, hwritten, by omega, ?_⟩
  rw [harrived, show done.length - givenUp T k = taken.length by omega]
  simp

/-! ## Turns -/

/-- What the giving of turns leaves behind on a connection. -/
structure Served (k : ℕ) (T : List Effect) (A : ℕ → List Arrival)
    (after : List PendingRequest × List Arrival × List Effect) : Prop where
  ledger : Ledger k (T ++ after.2.2) (A k) after.1.head?.toList after.2.1
  inbox : after.1 ≠ [] → after.2.1 = []
  matched : Matched (T ++ after.2.2) A
  other : ∀ j ≠ k, written after.2.2 j = [] ∧ givenUp after.2.2 j = 0

/-- What comes first is done on the connection as well. -/
theorem Served.prepend {A : ℕ → List Arrival} {first : List Effect}
    {after : List PendingRequest × List Arrival × List Effect} (h : Served k (T ++ first) A after)
    (hfirst : ∀ j ≠ k, written first j = [] ∧ givenUp first j = 0) :
    Served k T A (after.1, after.2.1, first ++ after.2.2) := by
  obtain ⟨hledger, hinbox, hmatched, hother⟩ := h
  rw [List.append_assoc] at hledger hmatched
  refine ⟨hledger, hinbox, hmatched, fun j hj => ?_⟩
  obtain ⟨hwritten, hgivenUp⟩ := hother j hj
  simp [hfirst j hj, hwritten, hgivenUp]

/-- Turns are given on a connection on which nobody has one. -/
theorem Ledger.served {A : ℕ → List Arrival} {line : List PendingRequest} {inbox : List Arrival}
    (h : Ledger k T (A k) [] inbox) (hm : Matched T A) : Served k T A (turns k line inbox) := by
  induction line generalizing inbox T with
  | nil => exact ⟨by simpa [turns] using h, by simp [turns], by simpa [turns] using hm,
      by simp [turns]⟩
  | cons e rest ih =>
    obtain ⟨done, taken, hwritten, harrived, hcount⟩ := h
    rw [List.append_nil] at hwritten
    unfold turns
    by_cases hfits : fits e.message = true
    · rw [if_pos hfits]
      cases inbox with
      | nil =>
        refine ⟨⟨done, taken, ?_, harrived, ?_⟩, fun _ => rfl, hm.skip (by simp), fun j hj => ?_⟩
        · simp [hwritten, Effect.writtenTo?]
        · simpa [Effect.givesUp] using hcount
        · simp [Effect.writtenTo?, Effect.givesUp, Ne.symm hj]
      | cons a inbox =>
        have hwrite : written (T ++ [.write k e]) k = done ++ [e] := by
          simp [hwritten, Effect.writtenTo?]
        have hcount' : taken.length + givenUp (T ++ [.write k e]) k = done.length := by
          simpa [Effect.givesUp] using hcount
        have hmatched := (hm.skip (x := .write k e) (by simp)).take hwrite harrived hcount'
        rw [List.append_assoc] at hmatched
        refine (ih ⟨done ++ [e], taken ++ [a], ?_, by simpa using harrived, ?_⟩ hmatched).prepend
          fun j hj => ?_
        · simp [hwritten, Effect.writtenTo?]
        · simp only [givenUp_append, givenUp_cons, givenUp_nil, Effect.givesUp, List.length_append,
            List.length_singleton] at hcount' ⊢
          simp
          omega
        · simp [Effect.writtenTo?, Effect.givesUp, Ne.symm hj]
    · rw [if_neg hfits]
      have hmatched := hm.skip (x := .finish e (.error (.io .frameTooBig))) (by simp)
      refine (ih ⟨done, taken, ?_, harrived, ?_⟩ hmatched).prepend fun j hj => ?_
      · simp [hwritten, Effect.writtenTo?]
      · simpa [Effect.givesUp] using hcount
      · simp [Effect.writtenTo?, Effect.givesUp]

/-! ## Balanced books -/

/-- The books of all connections balance, and every reply is matched. -/
structure Balanced (p : Pool) (T : List Effect) (A : ℕ → List Arrival) : Prop where
  ledger : ∀ k, Ledger k T (A k) (p.connection k).line.head?.toList (p.connection k).inbox
  inbox : ∀ k, (p.connection k).line ≠ [] → (p.connection k).inbox = []
  matched : Matched T A

theorem Ledger.append {turn : List PendingRequest} {arrived inbox : List Arrival}
    (h : Ledger k T arrived turn inbox) {T' : List Effect} (hwritten : written T' k = [])
    (hgivenUp : givenUp T' k = 0) : Ledger k (T ++ T') arrived turn inbox := by
  obtain ⟨done, taken, hw, ha, hc⟩ := h
  exact ⟨done, taken, by simp [hw, hwritten], ha, by simpa [hgivenUp] using hc⟩

theorem written_errors (error : NetworkError) (gone : List PendingRequest) (k : ℕ) :
    written (gone.map fun e => .finish e (.error error)) k = [] := by
  induction gone with
  | nil => rfl
  | cons e gone ih => simp [ih, Effect.writtenTo?]

theorem givenUp_errors (error : NetworkError) (gone : List PendingRequest) (k : ℕ) :
    givenUp (gone.map fun e => .finish e (.error error)) k = 0 := by
  induction gone with
  | nil => rfl
  | cons e gone ih => simp [ih, Effect.givesUp]

namespace Balanced

variable {A A' : ℕ → List Arrival}

theorem keep (h : p.Balanced T A) (hA : ∀ j ≠ k, A' j = A j) {first : List Effect}
    {after : List PendingRequest × List Arrival × List Effect}
    (hs : Served k T A' (after.1, after.2.1, first ++ after.2.2)) :
    (p.keep k first after).1.Balanced (T ++ (p.keep k first after).2) A' where
  ledger j := by
    rw [connection_keep, effects_keep]
    split_ifs with hj
    · exact hj ▸ hs.ledger
    · obtain ⟨hwritten, hgivenUp⟩ := hs.other j (Ne.symm hj)
      rw [hA j (Ne.symm hj)]
      exact (h.ledger j).append hwritten hgivenUp
  inbox j := by
    rw [connection_keep]
    split_ifs
    · exact hs.inbox
    · exact h.inbox j
  matched := hs.matched

theorem keep_nil (h : p.Balanced T A) (hA : ∀ j ≠ k, A' j = A j)
    {after : List PendingRequest × List Arrival × List Effect} (hs : Served k T A' after) :
    (p.keep k [] after).1.Balanced (T ++ (p.keep k [] after).2) A' :=
  h.keep hA (show Served k T A' (after.1, after.2.1, [] ++ after.2.2) from hs)

theorem connections_eq (h : p.Balanced T A) {p' : Pool} (hp : p'.connections = p.connections) :
    p'.Balanced T A := by
  have hconnection : ∀ k, p'.connection k = p.connection k := fun k => by
    rw [connection, connection, hp]
  exact ⟨fun k => hconnection k ▸ h.ledger k, fun k => hconnection k ▸ h.inbox k, h.matched⟩

/-- An effect on no connection with which no request takes a reply. -/
theorem snoc (h : p.Balanced T A) {x : Effect} (hwrite : ∀ k, x.writtenTo? k = none)
    (hgiveUp : ∀ k, x.givesUp k = false) (hfinish : ∀ e r, x ≠ .finish e (.ok r)) :
    p.Balanced (T ++ [x]) A :=
  ⟨fun k => (h.ledger k).append (by simp [hwrite]) (by simp [hgiveUp]), h.inbox,
    h.matched.skip hfinish⟩

theorem queue (h : p.Balanced T A) (k : ℕ) (e : PendingRequest) :
    (p.queue k e).1.Balanced (T ++ (p.queue k e).2) A := by
  have hledger := h.ledger k
  unfold Pool.queue
  dsimp only
  cases hline : (p.connection k).line with
  | nil =>
    rw [hline] at hledger
    exact h.keep_nil (fun _ _ => rfl) (hledger.served h.matched)
  | cons x rest =>
    rw [hline] at hledger
    have hs : Served k T A (x :: rest ++ [e], (p.connection k).inbox, []) :=
      ⟨by simpa using hledger, fun _ => h.inbox k (by simp [hline]), by simpa using h.matched,
        by simp⟩
    exact h.keep_nil (fun _ _ => rfl) hs

theorem arrived (h : p.Balanced T A) (k : ℕ) (a : Arrival) :
    (p.arrived k a).1.Balanced (T ++ (p.arrived k a).2)
      (fun j => if k = j then A j ++ [a] else A j) := by
  obtain ⟨done, taken, hwritten, harrived, hcount⟩ := h.ledger k
  have hmatched : Matched T (fun j => if k = j then A j ++ [a] else A j) := by
    refine h.matched.mono fun j => ?_
    split_ifs
    · exact List.prefix_append _ _
    · exact List.prefix_rfl
  have hA : ∀ j ≠ k, (if k = j then A j ++ [a] else A j) = A j :=
    fun j hj => if_neg (Ne.symm hj)
  unfold Pool.arrived
  dsimp only
  cases hline : (p.connection k).line with
  | nil =>
    rw [hline] at hwritten
    refine h.keep_nil hA ⟨⟨done, taken, ?_, ?_, ?_⟩, by simp, by simpa using hmatched, by simp⟩
    · simpa using hwritten
    · simp [harrived]
    · simpa using hcount
  | cons e rest =>
    have hinbox := h.inbox k (by simp [hline])
    rw [hline] at hwritten
    rw [hinbox, List.append_nil] at harrived
    rw [hinbox]
    have harrived' : (fun j => if k = j then A j ++ [a] else A j) k = taken ++ a :: [] := by
      simp [harrived]
    have htaken := hmatched.take hwritten harrived' hcount
    refine h.keep hA (Served.prepend (Ledger.served ⟨done ++ [e], taken ++ [a], ?_, ?_, ?_⟩ htaken)
      fun j hj => ?_)
    · simp [hwritten, Effect.writtenTo?]
    · simp [harrived]
    · simp [Effect.givesUp]
      omega
    · simp [Effect.writtenTo?, Effect.givesUp]

/-- The turn of a request is given up, and the next one in line gets its turn. -/
theorem giveUp (h : p.Balanced T A) {e : PendingRequest} {line : List PendingRequest}
    (hline : (p.connection k).line = e :: line) (error : NetworkError)
    (rest : List PendingRequest) :
    let kept := p.keep k [.giveUp k e, .finish e (.error error)]
      (turns k rest (p.connection k).inbox)
    kept.1.Balanced (T ++ kept.2) A := by
  have hledger := h.ledger k
  rw [hline] at hledger
  obtain ⟨done, taken, hwritten, harrived, hcount⟩ := hledger
  have hmatched := (h.matched.skip (x := .giveUp k e) (by simp)).skip
    (x := .finish e (.error error)) (by simp)
  rw [List.append_assoc] at hmatched
  refine h.keep (fun _ _ => rfl) (Served.prepend (Ledger.served
    ⟨done ++ [e], taken, ?_, harrived, ?_⟩ hmatched) fun j hj => ?_)
  · simp [hwritten, Effect.writtenTo?]
  · simp [Effect.givesUp]
    omega
  · simp [Effect.writtenTo?, Effect.givesUp, Ne.symm hj]

/-- Requests leave the line with errors, while another one keeps its turn. -/
theorem leave (h : p.Balanced T A) {e : PendingRequest} {line : List PendingRequest}
    (hline : (p.connection k).line = e :: line) (error : NetworkError)
    (gone rest : List PendingRequest) :
    let kept := p.keep k (gone.map fun e => .finish e (.error error))
      (e :: rest, (p.connection k).inbox, [])
    kept.1.Balanced (T ++ kept.2) A := by
  have hledger : Ledger k T (A k) [e] (p.connection k).inbox := by
    simpa [hline] using h.ledger k
  have hinbox := h.inbox k (by simp [hline])
  refine h.keep (fun _ _ => rfl) ⟨?_, fun _ => hinbox, ?_, fun j _ => ?_⟩
  · simpa using hledger.append (written_errors error gone k) (givenUp_errors error gone k)
  · simpa using h.matched.append_errors error gone
  · simp [written_errors, givenUp_errors]

theorem expired (h : p.Balanced T A) (ticket : ℕ) :
    (p.expired ticket).1.Balanced (T ++ (p.expired ticket).2) A := by
  unfold Pool.expired
  dsimp only
  split
  · rename_i e _
    have hlate := h.snoc (x := .finish e (.error (.timeout p.timeout))) (fun _ => rfl)
      (fun _ => rfl) (by simp)
    exact hlate.connections_eq (connections_heed _)
  · split
    · simpa using h
    · rename_i k c hc
      obtain rfl : p.connection k = c := connection_of_connectionOf? hc
      cases hline : (p.connection k).line with
      | nil => simpa using h
      | cons e line =>
        dsimp only
        split_ifs with hticket
        · exact h.giveUp hline _ _
        · have hfirst : (e :: line).filter (fun e => e.ticket ≠ ticket) =
              e :: line.filter (fun e => e.ticket ≠ ticket) := by simp [hticket]
          rw [hfirst]
          exact h.leave hline _ _ _

theorem start (h : p.Balanced T A) (e : PendingRequest) :
    (p.start e).1.Balanced (T ++ (p.start e).2) A := by
  unfold Pool.start
  split
  · exact h.queue _ e
  · exact (h.snoc (x := .dial e) (fun _ => rfl) (fun _ => rfl) (by simp)).connections_eq rfl

theorem dialled (h : p.Balanced T A) (ticket : ℕ) (result : Except IoFault Unit) :
    (p.dialled ticket result).1.Balanced (T ++ (p.dialled ticket result).2) A := by
  unfold Pool.dialled
  split
  · simpa using h
  · rename_i e _
    cases result with
    | error f =>
      exact (h.snoc (x := .finish e (.error (.io f))) (fun _ => rfl) (fun _ => rfl)
        (by simp)).connections_eq rfl
    | ok =>
      have hconnected : ({ p with dialling := p.dialling.filter fun e => e.ticket ≠ ticket }.connect
          e.address).Balanced T A := h.connections_eq rfl
      exact hconnected.queue p.opened e

/-- Every event keeps the books. -/
theorem step (h : p.Balanced T A) (event : Event) :
    (p.step event).1.Balanced (T ++ (p.step event).2) (fun k => A k ++ arrivals [event] k) := by
  cases event with
  | arrived k a =>
    have hA : (fun j => A j ++ arrivals [.arrived k a] j) =
        fun j => if k = j then A j ++ [a] else A j := by
      funext j
      by_cases hj : k = j <;> simp [arrivals, hj]
    rw [hA]
    exact h.arrived k a
  | start e => simpa [arrivals, Pool.step] using h.start e
  | dialled ticket result => simpa [arrivals, Pool.step] using h.dialled ticket result
  | enter k e => simpa [arrivals, Pool.step] using h.queue k e
  | expired ticket => simpa [arrivals, Pool.step] using h.expired ticket
  | connect address =>
    have hconnected : (p.connect address).Balanced T A := h.connections_eq rfl
    simpa [arrivals, Pool.step] using hconnected
  | forget address =>
    have hforgotten : (p.forget address).Balanced T A := h.connections_eq rfl
    simpa [arrivals, Pool.step] using hforgotten

end Balanced

end Pool

end PeerGateway
