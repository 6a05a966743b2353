import StellarFeeTracker.General.StableSort
import Mathlib.Data.List.Nodup

/-!
# Tables with a key

A table is a list of rows of which no two have the same key.  `upsert` puts a row in place of the one
with its key, or behind all others.  A change writes a row and then drops those that it does not keep;
a row is in the table after some changes exactly when the last change that wrote its key wrote it and
none has dropped it since (`mem_run_iff`).
-/

namespace KeyedTable

variable {ρ κ : Type*} [DecidableEq κ] (key : ρ → κ)

/-- No two rows have the same key. -/
def UniqueKeys (rows : List ρ) : Prop := (rows.map key).Nodup

/-- Replace the row with the key, or append the row. -/
def upsert (rows : List ρ) (row : ρ) : List ρ :=
  if rows.any fun old => key old = key row then
    rows.map fun old => if key old = key row then row else old
  else rows ++ [row]

variable {key}

theorem any_key_iff {rows : List ρ} {row : ρ} :
    (rows.any fun old => key old = key row) = true ↔ ∃ old ∈ rows, key old = key row := by
  simp

theorem mem_upsert_iff {rows : List ρ} {row r : ρ} :
    r ∈ upsert key rows row ↔ r = row ∨ r ∈ rows ∧ key row ≠ key r := by
  unfold upsert
  split_ifs with h
  · obtain ⟨old, hold, hkey⟩ := any_key_iff.1 h
    rw [List.mem_map]
    constructor
    · rintro ⟨a, ha, rfl⟩
      split_ifs with hsame
      · exact .inl rfl
      · exact .inr ⟨ha, fun h => hsame h.symm⟩
    · rintro (rfl | ⟨hr, hne⟩)
      · exact ⟨old, hold, if_pos hkey⟩
      · exact ⟨r, hr, if_neg fun h => hne h.symm⟩
  · rw [any_key_iff] at h
    rw [List.mem_append, List.mem_singleton]
    constructor
    · rintro (hr | rfl)
      · exact .inr ⟨hr, fun hkey => h ⟨r, hr, hkey.symm⟩⟩
      · exact .inl rfl
    · rintro (rfl | ⟨hr, -⟩)
      · exact .inr rfl
      · exact .inl hr

theorem UniqueKeys.upsert {rows : List ρ} (h : UniqueKeys key rows) (row : ρ) :
    UniqueKeys key (upsert key rows row) := by
  unfold UniqueKeys KeyedTable.upsert at *
  split_ifs with hany
  · have hkeys : (rows.map fun old => if key old = key row then row else old).map key =
        rows.map key := by
      rw [List.map_map]
      refine List.map_congr_left fun old _ => ?_
      rw [Function.comp_apply]
      split_ifs with hsame
      · exact hsame.symm
      · rfl
    rwa [hkeys]
  · rw [any_key_iff] at hany
    rw [List.map_append, List.map_singleton, List.nodup_append]
    refine ⟨h, List.nodup_singleton _, ?_⟩
    rintro k hk k' hk' rfl
    obtain ⟨old, hold, hkey⟩ := List.mem_map.1 hk
    exact hany ⟨old, hold, hkey.trans (List.mem_singleton.1 hk')⟩

omit [DecidableEq κ] in
theorem UniqueKeys.filter {rows : List ρ} (h : UniqueKeys key rows) (keep : ρ → Bool) :
    UniqueKeys key (rows.filter keep) :=
  h.sublist (List.filter_sublist.map key)

omit [DecidableEq κ] in
/-- In the order of their keys no two rows are at one place. -/
theorem UniqueKeys.pairwise_insertionSort [LinearOrder κ] {rows : List ρ}
    (h : UniqueKeys key rows) :
    (rows.insertionSort fun a b => key a ≤ key b).Pairwise fun a b => key a < key b := by
  have hsort := StableSort.isStableSort_insertionSort key rows
  have hunique : (rows.insertionSort fun a b => key a ≤ key b).Pairwise
      fun a b => key a ≠ key b :=
    List.pairwise_map.1 ((hsort.perm.map key).nodup_iff.2 h)
  exact hsort.ordered.imp₂ (fun _ _ => lt_of_le_of_ne) hunique

/-! ## Runs of changes -/

/-- A row to write, if any, and the rows to keep after it is written. -/
structure Change (ρ : Type*) where
  write : Option ρ
  keep : ρ → Bool

/-- The change that leaves a table as it is. -/
def Change.none : Change ρ where
  write := .none
  keep _ := true

variable (key) in
def Change.apply (rows : List ρ) (c : Change ρ) : List ρ :=
  ((c.write.elim rows (upsert key rows)).filter c.keep)

variable (key) in
/-- The change neither writes the key of a row nor drops the row. -/
def Change.Spares (c : Change ρ) (r : ρ) : Prop :=
  c.keep r = true ∧ ∀ row ∈ c.write, key row ≠ key r

theorem Change.mem_apply_iff {rows : List ρ} {c : Change ρ} {r : ρ} :
    r ∈ c.apply key rows ↔
      c.write = some r ∧ c.keep r = true ∨ r ∈ rows ∧ c.Spares key r := by
  unfold apply Spares
  rw [List.mem_filter]
  cases c.write with
  | none => simp
  | some row =>
    rw [Option.elim_some, mem_upsert_iff]
    simp only [Option.some.injEq, Option.mem_def, forall_eq', eq_comm (a := r)]
    tauto

theorem UniqueKeys.apply {rows : List ρ} (h : UniqueKeys key rows) (c : Change ρ) :
    UniqueKeys key (c.apply key rows) := by
  unfold Change.apply
  cases c.write with
  | none => exact h.filter c.keep
  | some row => exact (h.upsert row).filter c.keep

variable (key) in
/-- The table after some changes. -/
def run (rows : List ρ) (changes : List (Change ρ)) : List ρ :=
  changes.foldl (fun rows c => c.apply key rows) rows

theorem UniqueKeys.run {rows : List ρ} (h : UniqueKeys key rows) (changes : List (Change ρ)) :
    UniqueKeys key (run key rows changes) := by
  induction changes generalizing rows with
  | nil => exact h
  | cons c changes ih => exact ih (h.apply c)

/-- A row was there and has been spared, or was written and kept, and has been spared since. -/
theorem mem_run_iff {rows : List ρ} {changes : List (Change ρ)} {r : ρ} :
    r ∈ run key rows changes ↔
      (r ∈ rows ∧ ∀ c ∈ changes, c.Spares key r) ∨
        ∃ before c after, changes = before ++ c :: after ∧ c.write = some r ∧ c.keep r = true ∧
          ∀ later ∈ after, later.Spares key r := by
  induction changes generalizing rows with
  | nil => simp [run]
  | cons c changes ih =>
    have hrun : run key rows (c :: changes) = run key (c.apply key rows) changes := rfl
    rw [hrun, ih, Change.mem_apply_iff, List.forall_mem_cons]
    constructor
    · rintro (⟨⟨hwrite, hkeep⟩ | ⟨hr, hspares⟩, hrest⟩ | ⟨before, c', after, rfl, h⟩)
      · exact .inr ⟨[], c, changes, rfl, hwrite, hkeep, hrest⟩
      · exact .inl ⟨hr, hspares, hrest⟩
      · exact .inr ⟨c :: before, c', after, rfl, h⟩
    · rintro (⟨hr, hspares, hrest⟩ | ⟨before, c', after, heq, hwrite, hkeep, hrest⟩)
      · exact .inl ⟨.inr ⟨hr, hspares⟩, hrest⟩
      · cases before with
        | nil =>
          obtain ⟨rfl, rfl⟩ := List.cons.inj heq
          exact .inl ⟨.inl ⟨hwrite, hkeep⟩, hrest⟩
        | cons first before =>
          obtain ⟨rfl, rfl⟩ := List.cons.inj heq
          exact .inr ⟨before, c', after, rfl, hwrite, hkeep, hrest⟩

end KeyedTable
