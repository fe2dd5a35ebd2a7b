import PeerGateway.Transport.Pool
import Mathlib.Tactic.Common
import Mathlib.Tactic.SplitIfs

/-!
# Runs of a pool

A run is a list of events (`Pool.Event`), in any order and for any requests, and what the pool
does in it is a list of effects (`Pool.run`). What was written to a connection (`Pool.written`)
and how often a turn on it was given up (`Pool.givenUp`) can be read off the effects, what came
over it (`Pool.arrivals`) off the events.

Whatever happens on a connection goes through `Pool.keep`, which leaves all other connections
alone (`Pool.connection_keep`).
-/

namespace PeerGateway

namespace Pool

/-! ## Events and effects -/

/-- What happens to a pool. Of the requests that dial at the same time only the last one leaves its
connection in the pool, and one that has a connection need not get in line at once : `connect` and
`enter` are for these. -/
inductive Event
  | start (request : PendingRequest)
  | dialled (ticket : ℕ) (result : Except IoFault Unit)
  | connect (address : String)
  | enter (connection : ℕ) (request : PendingRequest)
  | arrived (connection : ℕ) (arrival : Arrival)
  | expired (ticket : ℕ)
  | forget (address : String)

def step (p : Pool) : Event → Pool × List Effect
  | .start e => p.start e
  | .dialled ticket result => p.dialled ticket result
  | .connect address => (p.connect address, [])
  | .enter k e => p.queue k e
  | .arrived k a => p.arrived k a
  | .expired ticket => p.expired ticket
  | .forget address => (p.forget address, [])

/-- The pool after events, and what it did. -/
def run (p : Pool) (events : List Event) : Pool × List Effect :=
  events.foldl (fun x event => ((x.1.step event).1, x.2 ++ (x.1.step event).2)) (p, [])

theorem run_concat (p : Pool) (events : List Event) (event : Event) :
    p.run (events ++ [event]) = (((p.run events).1.step event).1,
      (p.run events).2 ++ ((p.run events).1.step event).2) := by
  rw [run, List.foldl_append]
  rfl

/-- The request whose message an effect writes to a connection. -/
def Effect.writtenTo? (k : ℕ) : Effect → Option PendingRequest
  | .write j e => if j = k then some e else none
  | _ => none

/-- Whether an effect gives up a turn on a connection. -/
def Effect.givesUp (k : ℕ) : Effect → Bool
  | .giveUp j _ => j = k
  | _ => false

/-- The requests whose messages were written to a connection, in order. -/
def written (effects : List Effect) (k : ℕ) : List PendingRequest :=
  effects.filterMap (Effect.writtenTo? k)

/-- How often a turn on a connection was given up. -/
def givenUp (effects : List Effect) (k : ℕ) : ℕ := effects.countP (Effect.givesUp k)

/-- What came over a connection, in order. -/
def arrivals (events : List Event) (k : ℕ) : List Arrival :=
  events.filterMap fun
    | .arrived j a => if j = k then some a else none
    | _ => none

@[simp] theorem written_append (T T' : List Effect) (k : ℕ) :
    written (T ++ T') k = written T k ++ written T' k :=
  List.filterMap_append

@[simp] theorem givenUp_append (T T' : List Effect) (k : ℕ) :
    givenUp (T ++ T') k = givenUp T k + givenUp T' k :=
  List.countP_append

@[simp] theorem written_cons (x : Effect) (T : List Effect) (k : ℕ) :
    written (x :: T) k = (x.writtenTo? k).toList ++ written T k := by
  cases h : x.writtenTo? k <;> simp [written, h]

@[simp] theorem givenUp_cons (x : Effect) (T : List Effect) (k : ℕ) :
    givenUp (x :: T) k = (if x.givesUp k then 1 else 0) + givenUp T k := by
  rw [givenUp, List.countP_cons, Nat.add_comm]
  rfl

@[simp] theorem written_nil (k : ℕ) : written [] k = [] :=
  rfl

@[simp] theorem givenUp_nil (k : ℕ) : givenUp [] k = 0 :=
  rfl

@[simp] theorem arrivals_append (events events' : List Event) (k : ℕ) :
    arrivals (events ++ events') k = arrivals events k ++ arrivals events' k :=
  List.filterMap_append

/-! ## Connections -/

variable {p : Pool}

theorem connections_heed (effects : List Effect) :
    (p.heed effects).connections = p.connections := by
  unfold heed
  induction effects generalizing p with
  | nil => rfl
  | cons effect effects ih =>
    rw [List.foldl_cons, ih]
    split <;> rfl

theorem connection_keep (k j : ℕ) (first : List Effect)
    (after : List PendingRequest × List Arrival × List Effect) :
    (p.keep k first after).1.connection j =
      if k = j then ⟨after.1, after.2.1⟩ else p.connection j := by
  obtain ⟨line, inbox, effects⟩ := after
  unfold keep connection
  rw [connections_heed]
  by_cases h : k = j <;> simp [Std.ExtTreeMap.getElem?_insert, h]

theorem effects_keep (k : ℕ) (first : List Effect)
    (after : List PendingRequest × List Arrival × List Effect) :
    (p.keep k first after).2 = first ++ after.2.2 :=
  rfl

theorem connection_of_connectionOf? {ticket k : ℕ} {c : Connection}
    (h : p.connectionOf? ticket = some (k, c)) : p.connection k = c := by
  have hmem := List.mem_of_find?_eq_some h
  rw [Std.ExtTreeMap.mem_toList_iff_getElem?_eq_some] at hmem
  rw [connection, hmem, Option.getD_some]

end Pool

end PeerGateway
