import Mathlib.Data.Finset.Basic
import Mathlib.Data.Finset.Dedup
import Mathlib.Data.List.Nodup
import Mathlib.Tactic.Common

/-!
# Keeping the first element of each key

A loop that inserts a key into a set and acts only when the insertion was new keeps, of a list, the
elements whose key is neither in the set at the start nor the key of an earlier element.
`firstByKey key seen xs` is the list of these elements and `seenAfter key seen xs` the set when the
loop is done; `foldl_insertNew` says that the accumulating loop computes both.
-/

namespace FirstByKey

variable {α β κ : Type*} [DecidableEq κ] (key : α → κ)

/-- The elements of a list whose key is new when the list is read from the left. -/
def firstByKey (seen : Finset κ) : List α → List α
  | [] => []
  | x :: xs => if key x ∈ seen then firstByKey seen xs else x :: firstByKey (insert (key x) seen) xs

/-- The keys seen when the list has been read. -/
def seenAfter (seen : Finset κ) (xs : List α) : Finset κ := seen ∪ (xs.map key).toFinset

@[simp] theorem firstByKey_nil (seen : Finset κ) : firstByKey key seen [] = [] := rfl

theorem firstByKey_cons_of_mem {seen : Finset κ} {x : α} (h : key x ∈ seen) (xs : List α) :
    firstByKey key seen (x :: xs) = firstByKey key seen xs := if_pos h

theorem firstByKey_cons_of_notMem {seen : Finset κ} {x : α} (h : key x ∉ seen) (xs : List α) :
    firstByKey key seen (x :: xs) = x :: firstByKey key (insert (key x) seen) xs := if_neg h

theorem firstByKey_sublist (seen : Finset κ) (xs : List α) :
    (firstByKey key seen xs).Sublist xs := by
  induction xs generalizing seen with
  | nil => exact List.Sublist.refl _
  | cons x xs ih =>
    by_cases h : key x ∈ seen
    · rw [firstByKey_cons_of_mem key h]
      exact (ih seen).cons x
    · rw [firstByKey_cons_of_notMem key h]
      exact (ih _).cons_cons x

/-- A key is kept exactly when it was not seen before and some element of the list has it. -/
theorem mem_map_firstByKey_iff (seen : Finset κ) (xs : List α) (k : κ) :
    k ∈ (firstByKey key seen xs).map key ↔ k ∉ seen ∧ k ∈ xs.map key := by
  induction xs generalizing seen with
  | nil => simp
  | cons x xs ih =>
    by_cases h : key x ∈ seen
    · rw [firstByKey_cons_of_mem key h, ih]
      simp only [List.map_cons, List.mem_cons]
      constructor
      · exact fun ⟨h1, h2⟩ => ⟨h1, Or.inr h2⟩
      · rintro ⟨h1, rfl | h2⟩
        · exact absurd h h1
        · exact ⟨h1, h2⟩
    · rw [firstByKey_cons_of_notMem key h, List.map_cons, List.mem_cons, ih]
      simp only [List.map_cons, List.mem_cons, Finset.mem_insert, not_or]
      constructor
      · rintro (rfl | ⟨⟨-, h1⟩, h2⟩)
        · exact ⟨h, Or.inl rfl⟩
        · exact ⟨h1, Or.inr h2⟩
      · rintro ⟨h1, h2⟩
        by_cases hk : k = key x
        · exact Or.inl hk
        · exact Or.inr ⟨⟨hk, h1⟩, h2.resolve_left hk⟩

/-- No two kept elements share a key. -/
theorem nodup_map_firstByKey (seen : Finset κ) (xs : List α) :
    ((firstByKey key seen xs).map key).Nodup := by
  induction xs generalizing seen with
  | nil => exact List.nodup_nil
  | cons x xs ih =>
    by_cases h : key x ∈ seen
    · rw [firstByKey_cons_of_mem key h]
      exact ih seen
    · rw [firstByKey_cons_of_notMem key h, List.map_cons, List.nodup_cons]
      refine ⟨fun hx => ?_, ih _⟩
      exact ((mem_map_firstByKey_iff key _ _ _).1 hx).1 (Finset.mem_insert_self _ _)

/-- Keys that differ still differ when those of the new elements are added. -/
theorem nodup_append_firstByKey {keys : List κ} (h : keys.Nodup) (xs : List α) :
    (keys ++ (firstByKey key keys.toFinset xs).map key).Nodup := by
  rw [List.nodup_append']
  refine ⟨h, nodup_map_firstByKey key keys.toFinset xs, ?_⟩
  intro k hold hnew
  have hunseen := ((mem_map_firstByKey_iff key keys.toFinset xs k).1 hnew).1
  exact hunseen (List.mem_toFinset.2 hold)

/-- A key is kept once if it is new and occurs in the list, and not at all otherwise. -/
theorem count_map_firstByKey (seen : Finset κ) (xs : List α) (k : κ) :
    ((firstByKey key seen xs).map key).count k = if k ∉ seen ∧ k ∈ xs.map key then 1 else 0 := by
  rw [(nodup_map_firstByKey key seen xs).count]
  simp only [mem_map_firstByKey_iff]

/-- Of elements with distinct keys those with a new key are kept. -/
theorem firstByKey_eq_filter {xs : List α} (h : (xs.map key).Nodup) (seen : Finset κ) :
    firstByKey key seen xs = xs.filter fun x => key x ∉ seen := by
  induction xs generalizing seen with
  | nil => rfl
  | cons x xs ih =>
    obtain ⟨hx, hxs⟩ := List.nodup_cons.1 h
    by_cases hseen : key x ∈ seen
    · rw [firstByKey_cons_of_mem key hseen, List.filter_cons_of_neg (by simpa using hseen), ih hxs]
    · rw [firstByKey_cons_of_notMem key hseen, List.filter_cons_of_pos (by simpa using hseen), ih hxs]
      congr 1
      refine List.filter_congr fun y hy => ?_
      have hne : key y ≠ key x := fun hkey => hx (hkey ▸ List.mem_map_of_mem hy)
      simp [hne]

/-- It does not matter whether a key that no element has was seen. -/
theorem firstByKey_insert_of_forall_ne {k : κ} {xs : List α} (h : ∀ x ∈ xs, key x ≠ k)
    (seen : Finset κ) : firstByKey key (insert k seen) xs = firstByKey key seen xs := by
  induction xs generalizing seen with
  | nil => rfl
  | cons x xs ih =>
    rw [List.forall_mem_cons] at h
    have hmem : key x ∈ insert k seen ↔ key x ∈ seen := by
      rw [Finset.mem_insert, or_iff_right h.1]
    by_cases hseen : key x ∈ seen
    · rw [firstByKey_cons_of_mem key (hmem.2 hseen), firstByKey_cons_of_mem key hseen, ih h.2]
    · rw [firstByKey_cons_of_notMem key (hmem.not.2 hseen), firstByKey_cons_of_notMem key hseen,
        Finset.insert_comm, ih h.2]

@[simp] theorem seenAfter_nil (seen : Finset κ) : seenAfter key seen [] = seen := by
  simp [seenAfter]

theorem seenAfter_cons (seen : Finset κ) (x : α) (xs : List α) :
    seenAfter key seen (x :: xs) = seenAfter key (insert (key x) seen) xs := by
  ext k
  simp only [seenAfter, List.map_cons, List.toFinset_cons, Finset.mem_union, Finset.mem_insert]
  tauto

/-- What is kept of the second part of a list depends on the keys of the first. -/
theorem firstByKey_append (seen : Finset κ) (xs ys : List α) :
    firstByKey key seen (xs ++ ys) =
      firstByKey key seen xs ++ firstByKey key (seenAfter key seen xs) ys := by
  induction xs generalizing seen with
  | nil => simp
  | cons x xs ih =>
    rw [List.cons_append, seenAfter_cons]
    by_cases h : key x ∈ seen
    · rw [firstByKey_cons_of_mem key h, firstByKey_cons_of_mem key h, ih, Finset.insert_eq_of_mem h]
    · rw [firstByKey_cons_of_notMem key h, firstByKey_cons_of_notMem key h, ih, List.cons_append]

/-- Elements may be dropped before or after, if those with one key are dropped together. -/
theorem firstByKey_filter {p : α → Bool} {xs : List α}
    (hp : ∀ x ∈ xs, ∀ y ∈ xs, key x = key y → p x = p y) (seen : Finset κ) :
    firstByKey key seen (xs.filter p) = (firstByKey key seen xs).filter p := by
  induction xs generalizing seen with
  | nil => rfl
  | cons x xs ih =>
    have ih' := ih (fun y hy z hz => hp y (List.mem_cons_of_mem _ hy) z (List.mem_cons_of_mem _ hz))
    cases hx : p x with
    | true =>
      rw [List.filter_cons_of_pos hx]
      by_cases h : key x ∈ seen
      · rw [firstByKey_cons_of_mem key h, firstByKey_cons_of_mem key h, ih']
      · rw [firstByKey_cons_of_notMem key h, firstByKey_cons_of_notMem key h, ih',
          List.filter_cons_of_pos hx]
    | false =>
      rw [List.filter_cons_of_neg (by simp [hx])]
      by_cases h : key x ∈ seen
      · rw [firstByKey_cons_of_mem key h, ih']
      · rw [firstByKey_cons_of_notMem key h, List.filter_cons_of_neg (by simp [hx]), ← ih']
        -- the other elements with this key are dropped too, so that it does not matter that it was seen
        have hgone : ∀ y ∈ xs.filter p, key y ≠ key x := by
          intro y hy hkey
          obtain ⟨hmem, hpy⟩ := List.mem_filter.1 hy
          have hsame := hp y (List.mem_cons_of_mem _ hmem) x List.mem_cons_self hkey
          rw [hpy, hx] at hsame
          cases hsame
        exact (firstByKey_insert_of_forall_ne key hgone seen).symm

/-- With the elements in the order of their numbers, the first of each key has the least number. -/
theorem filter_least_eq_firstByKey {ι : Type*} [LinearOrder ι] (number : α → ι) {xs : List α}
    (h : (xs.map number).Pairwise (· < ·)) (seen : Finset κ) :
    (xs.filter fun x => key x ∉ seen ∧ ∀ other ∈ xs, key other = key x → number x ≤ number other) =
      firstByKey key seen xs := by
  induction xs generalizing seen with
  | nil => rfl
  | cons x xs ih =>
    rw [List.map_cons, List.pairwise_cons] at h
    have hfirst : ∀ y ∈ xs, number x < number y := fun y hy => h.1 _ (List.mem_map_of_mem hy)
    have hleast : ∀ other ∈ x :: xs, key other = key x → number x ≤ number other := by
      rw [List.forall_mem_cons]
      exact ⟨fun _ => le_rfl, fun y hy _ => (hfirst y hy).le⟩
    have hrest : ∀ y ∈ xs,
        ((∀ other ∈ x :: xs, key other = key y → number y ≤ number other) ↔
          key x ≠ key y ∧ ∀ other ∈ xs, key other = key y → number y ≤ number other) := by
      intro y hy
      rw [List.forall_mem_cons]
      refine and_congr_left fun _ => ⟨fun hle hkey => ?_, fun hne hkey => absurd hkey hne⟩
      exact absurd (hle hkey) (not_le.2 (hfirst y hy))
    by_cases hseen : key x ∈ seen
    · rw [firstByKey_cons_of_mem key hseen, List.filter_cons_of_neg (by simp [hseen]), ← ih h.2 seen]
      refine List.filter_congr fun y hy => decide_eq_decide.2 ?_
      rw [hrest y hy]
      exact and_congr_right fun hy => and_iff_right fun hkey => hy (hkey ▸ hseen)
    · rw [firstByKey_cons_of_notMem key hseen, List.filter_cons, if_pos, ← ih h.2 _]
      swap
      · exact decide_eq_true ⟨hseen, hleast⟩
      congr 1
      refine List.filter_congr fun y hy => decide_eq_decide.2 ?_
      rw [hrest y hy, Finset.mem_insert, not_or, and_assoc, and_left_comm, ne_comm]

theorem map_firstByKey (f : β → α) (seen : Finset κ) (xs : List β) :
    (firstByKey (key ∘ f) seen xs).map f = firstByKey key seen (xs.map f) := by
  induction xs generalizing seen with
  | nil => rfl
  | cons x xs ih =>
    rw [List.map_cons]
    by_cases h : key (f x) ∈ seen
    · rw [firstByKey_cons_of_mem key h, firstByKey_cons_of_mem (key ∘ f) h, ih]
    · rw [firstByKey_cons_of_notMem key h, firstByKey_cons_of_notMem (key ∘ f) h, List.map_cons, ih]
      rfl

/-- One round of the loop: act on `x` when its key goes into the set as a new element. -/
def insertNew (act : α → β) (acc : Finset κ × List β) (x : α) : Finset κ × List β :=
  if key x ∈ acc.1 then acc else (insert (key x) acc.1, acc.2 ++ [act x])

/-- The loop acts on the first element of each new key, in order, and remembers every key. -/
theorem foldl_insertNew (act : α → β) (xs : List α) (seen : Finset κ) (out : List β) :
    xs.foldl (insertNew key act) (seen, out) =
      (seenAfter key seen xs, out ++ (firstByKey key seen xs).map act) := by
  induction xs generalizing seen out with
  | nil => simp
  | cons x xs ih =>
    rw [List.foldl_cons, seenAfter_cons]
    by_cases h : key x ∈ seen
    · rw [insertNew, if_pos h, ih, firstByKey_cons_of_mem key h, Finset.insert_eq_of_mem h]
    · rw [insertNew, if_neg h, ih, firstByKey_cons_of_notMem key h]
      simp

end FirstByKey
