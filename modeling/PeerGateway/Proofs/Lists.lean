import Mathlib.Data.List.Nodup

/-!
# Lists

Facts about lists of anything: a statement on each element and those before it
(`forall_split_concat`), elements by their positions, and what becomes of the elements when a
function that can fail is applied to each.
-/

namespace PeerGateway

variable {α β δ ε : Type}

/-! ## Elements with what is before them -/

/-- A statement on each element of a list and the elements before it, as on each effect of a run and
what was done before, holds of a longer list if it holds of the new element as well. -/
theorem forall_split_concat {P : List α → α → Prop} {l : List α} {x : α}
    (h : ∀ before a after, l = before ++ a :: after → P before a) (hx : P l x) :
    ∀ before a after, l ++ [x] = before ++ a :: after → P before a := by
  intro before a after heq
  rcases List.eq_nil_or_concat after with rfl | ⟨after, y, rfl⟩
  · obtain ⟨rfl, ha⟩ := List.append_inj' heq rfl
    exact List.singleton_inj.mp ha ▸ hx
  · have heq' : l ++ [x] = (before ++ a :: after) ++ [y] := by simpa using heq
    exact h before a after (List.append_inj' heq' rfl).1

/-! ## Elements by their positions -/

/-- The elements at all positions are all elements. -/
theorem filterMap_getElem?_range : ∀ l : List α, (List.range l.length).filterMap (l[·]?) = l
  | [] => rfl
  | a :: l => by
    rw [List.length_cons, List.range_succ_eq_map, List.filterMap_cons, List.filterMap_map]
    exact congrArg (a :: ·) (filterMap_getElem?_range l)

/-- Without repetition, an element is found at its own position. -/
theorem finIdxOf?_get [DecidableEq α] {l : List α} (h : l.Nodup) (i : Fin l.length) :
    l.finIdxOf? (l.get i) = some i := by
  refine List.finIdxOf?_eq_some_iff.mpr ⟨rfl, fun j hj heq => ?_⟩
  have hji : j = i := List.nodup_iff_injective_get.mp h heq
  exact absurd hj (hji ▸ Nat.lt_irrefl _)

/-! ## Functions that can fail -/

/-- Each result is that of some element. -/
theorem exists_of_mem_mapM {f : α → Option β} : ∀ {as : List α} {bs : List β},
    as.mapM f = some bs → ∀ b ∈ bs, ∃ a ∈ as, f a = some b
  | [], bs, h, b, hb => by
    obtain rfl : [] = bs := by simpa using h
    simp at hb
  | a :: as, bs, h, b, hb => by
    simp only [List.mapM_cons, Option.pure_def, Option.bind_eq_bind, Option.bind_eq_some_iff,
      Option.some.injEq] at h
    obtain ⟨b', hb', bs', hbs', rfl⟩ := h
    rcases List.mem_cons.mp hb with rfl | hmem
    · exact ⟨a, List.mem_cons_self, hb'⟩
    · obtain ⟨a', ha', hfa⟩ := exists_of_mem_mapM hbs' b hmem
      exact ⟨a', List.mem_cons_of_mem a ha', hfa⟩

/-- What each step preserves holds at the end. -/
theorem invariant_foldlM {I : δ → Prop} {f : δ → α → Option δ} : ∀ {as : List α}
    {d d' : δ}, (∀ a ∈ as, ∀ d d', I d → f d a = some d' → I d') → I d →
      as.foldlM f d = some d' → I d'
  | [], d, d', _, hd, h => by
    obtain rfl : d = d' := by simpa using h
    exact hd
  | a :: as, d, d', hstep, hd, h => by
    simp only [List.foldlM_cons, Option.bind_eq_bind, Option.bind_eq_some_iff] at h
    obtain ⟨e, he, hrest⟩ := h
    obtain ⟨ha, has⟩ := List.forall_mem_cons.mp hstep
    exact invariant_foldlM has (ha d e hd he) hrest

/-- Where a function gives values or one and the same error, a list is mapped if all its elements
are, and comes to that error otherwise. -/
theorem mapM_eq_ite {f : α → Except ε β} {p : α → Bool} {g : α → β} {e : ε}
    (hf : ∀ a, f a = if p a then .ok (g a) else .error e) (as : List α) :
    as.mapM f = if as.all p then .ok (as.map g) else .error e := by
  induction as with
  | nil => rfl
  | cons a as ih =>
    rw [List.mapM_cons, hf, ih, List.all_cons]
    cases p a with
    | false => rfl
    | true => cases as.all p <;> rfl

end PeerGateway
