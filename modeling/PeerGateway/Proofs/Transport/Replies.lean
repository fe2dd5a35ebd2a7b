import PeerGateway.Proofs.Transport.Ledger
import Mathlib.Data.List.Induction

/-!
# Whose reply a request gets

If the remote end of each connection answers the messages there in order
(`Pool.AnswersInOrder`), a request that nobody gave up a turn before on its connection gets the
reply to its own message. If turns were given up, it gets the reply to the message of an earlier
request, by as many places as turns were given up (`Pool.reply_cases`).

This does happen (`Pool.reply_to_another`) : a request whose time is over leaves its connection to
the next one in line, which takes the late reply for its own.
-/

namespace PeerGateway

namespace Pool

/-- The books of every run balance. -/
theorem balanced_run (timeout : Span) (events : List Event) :
    (run { timeout } events).1.Balanced (run { timeout } events).2 (arrivals events) := by
  induction events using List.reverseRecOn with
  | nil =>
    have hempty : ∀ k, (run { timeout } []).1.connection k = {} := fun k => by
      simp [run, connection]
    refine ⟨fun k => ⟨[], [], ?_⟩, fun k _ => ?_, fun before x after h => ?_⟩
    · rw [hempty]
      exact ⟨rfl, rfl, rfl⟩
    · rw [hempty]
    · simp [run] at h
  | append_singleton events event ih =>
    rw [run_concat]
    have hA : arrivals (events ++ [event]) = fun k => arrivals events k ++ arrivals [event] k :=
      funext fun k => arrivals_append events [event] k
    rw [hA]
    exact ih.step event

theorem arrived_of_arrivals_singleton {event : Event} {k i : ℕ} {a : Arrival}
    (h : (arrivals [event] k)[i]? = some a) : event = .arrived k a ∧ i = 0 := by
  cases event with
  | arrived j b =>
    by_cases hj : j = k
    · cases i <;> simp_all [arrivals]
    · simp [arrivals, hj] at h
  | _ => simp [arrivals] at h

/-- The remote end of each connection answers the messages that it gets there in order : what
comes in the place `n`, if it is a message, is the answer to the one that was written in the
place `n`. -/
def AnswersInOrder (answer : ℕ → ℕ → Message → Message) (timeout : Span) (events : List Event) :
    Prop :=
  ∀ before k r after, events = before ++ .arrived k (.message r) :: after →
    ∃ e, (written (run { timeout } before).2 k)[(arrivals before k).length]? = some e ∧
      r = answer k (arrivals before k).length e.message

namespace AnswersInOrder

variable {answer : ℕ → ℕ → Message → Message} {timeout : Span} {events : List Event}

/-- Every arrival in a run answers the message in the same place. -/
theorem exists_written (h : AnswersInOrder answer timeout events) {k n : ℕ} {r : Message}
    (hr : (arrivals events k)[n]? = some (.message r)) :
    ∃ e, (written (run { timeout } events).2 k)[n]? = some e ∧ r = answer k n e.message := by
  induction events using List.reverseRecOn with
  | nil => simp [arrivals] at hr
  | append_singleton events event ih =>
    have hbefore : AnswersInOrder answer timeout events := fun before k r after heq =>
      h before k r (after ++ [event]) (by simp [heq])
    have hwritten : ∀ e, (written (run { timeout } events).2 k)[n]? = some e →
        (written (run { timeout } (events ++ [event])).2 k)[n]? = some e := by
      intro e he
      rw [run_concat, written_append,
        List.getElem?_append_left (List.getElem?_eq_some_iff.mp he).1, he]
    rw [arrivals_append] at hr
    by_cases hn : n < (arrivals events k).length
    · rw [List.getElem?_append_left hn] at hr
      obtain ⟨e, he, hanswer⟩ := ih hbefore hr
      exact ⟨e, hwritten e he, hanswer⟩
    · rw [List.getElem?_append_right (Nat.le_of_not_lt hn)] at hr
      obtain ⟨rfl, hi⟩ := arrived_of_arrivals_singleton hr
      obtain ⟨e, he, hanswer⟩ := h events k r [] rfl
      obtain rfl : n = (arrivals events k).length := by omega
      exact ⟨e, hwritten e he, hanswer⟩

end AnswersInOrder

/-- The reply that a request ends with answers its own message, if no turn was given up on its
connection before, and the message of an earlier request otherwise. -/
theorem reply_cases {answer : ℕ → ℕ → Message → Message} {timeout : Span} {events : List Event}
    (h : AnswersInOrder answer timeout events) {before after : List Effect} {e : PendingRequest}
    {r : Message} (hend : (run { timeout } events).2 = before ++ .finish e (.ok r) :: after) :
    ∃ k others, written before k = others ++ [e] ∧
      ((givenUp before k = 0 ∧ r = answer k others.length e.message) ∨
      (0 < givenUp before k ∧ ∃ n f, n + givenUp before k = others.length ∧
        others[n]? = some f ∧ r = answer k n f.message)) := by
  obtain ⟨k, others, hwritten, hle, hr⟩ :=
    (balanced_run timeout events).matched _ _ _ hend e r rfl
  obtain ⟨f, hf, hanswer⟩ := h.exists_written hr
  -- What was written until the request ended begins what is written in the whole run.
  have hlt : others.length - givenUp before k < (written before k).length := by
    rw [hwritten, List.length_append, List.length_singleton]
    omega
  rw [hend, written_append, List.getElem?_append_left hlt, hwritten] at hf
  refine ⟨k, others, hwritten, ?_⟩
  rcases Nat.eq_zero_or_pos (givenUp before k) with hzero | hpos
  · rw [hzero, Nat.sub_zero] at hf hanswer
    rw [List.getElem?_concat_length, Option.some.injEq] at hf
    exact Or.inl ⟨hzero, hf ▸ hanswer⟩
  · refine Or.inr ⟨hpos, others.length - givenUp before k, f, by omega, ?_, hanswer⟩
    rwa [List.getElem?_append_left (by omega)] at hf

/-! ## A crossed reply -/

/-- A ping to one address. -/
def pinging (ticket : ℕ) : PendingRequest :=
  ⟨ticket, "b:1", .ping ⟨⟨"a"⟩, .ofNat ticket⟩⟩

/-- The answer of a node to pings. -/
def pong : Message → Message
  | .ping beat => .pong beat
  | m => m

/-- Two pings go to one address, and the time of the first is over before its pong comes. -/
def crossed : List Event :=
  [.start (pinging 0), .dialled 0 (.ok ()), .start (pinging 1), .expired 0,
    .arrived 0 (.message (pong (pinging 0).message))]

/-- What the pool does then, up to the end of the second request. -/
def crossedEffects : List Effect :=
  [.dial (pinging 0), .write 0 (pinging 0), .giveUp 0 (pinging 0),
    .finish (pinging 0) (.error (.timeout (.ofSecs 3))), .write 0 (pinging 1)]

theorem answersInOrder_crossed : AnswersInOrder (fun _ _ => pong) (.ofSecs 3) crossed := by
  intro before k r after heq
  -- Only the last event is an arrival.
  rcases before with _ | ⟨_, _ | ⟨_, _ | ⟨_, _ | ⟨_, before⟩⟩⟩⟩ <;> simp [crossed] at heq
  obtain ⟨rfl, rfl, rfl, rfl, heq⟩ := heq
  rcases before with _ | ⟨_, before⟩ <;> simp at heq
  obtain ⟨⟨rfl, rfl⟩, rfl⟩ := heq
  exact ⟨pinging 0, rfl, rfl⟩

theorem run_crossed : (run { timeout := .ofSecs 3 } crossed).2 =
    crossedEffects ++ [.finish (pinging 1) (.ok (pong (pinging 0).message))] :=
  rfl

/-- A turn was given up before, so the second ping gets the pong to an earlier one. -/
theorem reply_cases_crossed : 0 < givenUp crossedEffects 0 ∧
    ∃ (k n : ℕ) (others : List PendingRequest) (f : PendingRequest),
      written crossedEffects k = others ++ [pinging 1] ∧ others[n]? = some f ∧
      pong (pinging 0).message = pong f.message := by
  obtain ⟨k, others, hwritten, ⟨-, hr⟩ | ⟨-, n, f, -, hf, hr⟩⟩ :=
    reply_cases answersInOrder_crossed run_crossed
  · exact absurd hr (by decide)
  · exact ⟨by decide, k, n, others, f, hwritten, hf, hr⟩

/-- A request can end with a reply that is the answer to another request's message, and not to
its own. -/
theorem reply_to_another : AnswersInOrder (fun _ _ => pong) (.ofSecs 3) crossed ∧
    (run { timeout := .ofSecs 3 } crossed).2 =
      crossedEffects ++ [.finish (pinging 1) (.ok (pong (pinging 0).message))] ∧
    pong (pinging 0).message ≠ pong (pinging 1).message :=
  ⟨answersInOrder_crossed, run_crossed, by decide⟩

end Pool

end PeerGateway
