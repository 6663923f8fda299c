import Mathlib

/-!
# Grouping by a key

Values that share a key are joined into one, at the place where the key occurs first. Here are two
ways to do it and what comes of both: the values joined so far are searched for the key, or a table
tells the place of each key. Nothing is asked of the way in which two values are joined, except that
it keeps the key of the first. In particular a joined value stays where it is whatever it has become,
and later values with its key still find it.

## Main definitions

* `Grouping.insert`: join a value by searching
* `Grouping.Table`, `Table.add`: join a value through a table of places
* `Grouping.leaders`, `joined`: the first value of every key, and all of a key joined to the first

## Main results

* `Grouping.foldl_insert_eq`: searching joins all values of a key, in order, to the first of them
* `Grouping.values_foldl_add`: the table gives what searching gives
-/

namespace AlgebraicModel.Grouping

variable {β γ κ : Type} [DecidableEq κ]

/-- Join a value to the first one with the same key, or put it last. -/
def insert (key : β → κ) (join : β → β → β) (x : β) : List β → List β
  | [] => [x]
  | y :: ys => if key y = key x then join y x :: ys else y :: insert key join x ys

/-- The first value of every key, in order. -/
def leaders (key : β → κ) : List β → List β
  | [] => []
  | x :: xs => x :: (leaders key xs).filter (key · ≠ key x)

/-- The values that share the key of `x`, which is the first of them, joined to it in order. -/
def joined (key : β → κ) (join : β → β → β) (xs : List β) (x : β) : β :=
  (xs.filter (key · = key x)).tail.foldl join x

section Leaders

variable {key : β → κ} {xs : List β} {x y : β}

theorem leaders_subset : leaders key xs ⊆ xs := by
  induction xs with
  | nil => exact List.Subset.refl _
  | cons x xs ih =>
    exact List.cons_subset_cons x (List.Subset.trans (List.filter_subset_self _) ih)

theorem key_mem_leaders {k : κ} : k ∈ (leaders key xs).map key ↔ k ∈ xs.map key := by
  induction xs with
  | nil => rfl
  | cons x xs ih =>
    rw [leaders, List.map_cons, List.map_cons, List.mem_cons, List.mem_cons, ← ih]
    by_cases hk : k = key x
    · exact iff_of_true (.inl hk) (.inl hk)
    · rw [or_iff_right hk, or_iff_right hk]
      simp only [List.mem_map, List.mem_filter, decide_eq_true_eq]
      constructor
      · rintro ⟨y, ⟨hy, -⟩, rfl⟩
        exact ⟨y, hy, rfl⟩
      · rintro ⟨y, hy, rfl⟩
        exact ⟨y, ⟨hy, hk⟩, rfl⟩

/-- No key has two leaders. -/
theorem nodup_leaders (key : β → κ) (xs : List β) : ((leaders key xs).map key).Nodup := by
  induction xs with
  | nil => exact List.nodup_nil
  | cons x xs ih =>
    rw [leaders, List.map_cons, List.nodup_cons]
    refine ⟨fun h => ?_, ih.sublist (List.filter_sublist.map key)⟩
    obtain ⟨y, hy, hkey⟩ := List.mem_map.mp h
    exact of_decide_eq_true (List.mem_filter.mp hy).2 hkey

/-- A leader is the first value with its key. -/
theorem exists_filter_eq_cons (hx : x ∈ leaders key xs) :
    ∃ ys, xs.filter (key · = key x) = x :: ys := by
  induction xs with
  | nil => simp [leaders] at hx
  | cons y xs ih =>
    rcases List.mem_cons.mp hx with rfl | hx
    · exact ⟨xs.filter (key · = key x), List.filter_cons_of_pos (by simp)⟩
    · obtain ⟨hx, hne⟩ := List.mem_filter.mp hx
      rw [List.filter_cons_of_neg (by simpa using Ne.symm (of_decide_eq_true hne))]
      exact ih hx

/-- One more value leads if its key is new. -/
theorem leaders_concat (key : β → κ) (xs : List β) (x : β) : leaders key (xs ++ [x]) =
    if key x ∈ xs.map key then leaders key xs else leaders key xs ++ [x] := by
  induction xs with
  | nil => simp [leaders]
  | cons y xs ih =>
    rw [List.cons_append, leaders, ih, leaders]
    by_cases hy : key x = key y
    · have hleft (zs : List β) : (zs ++ [x]).filter (key · ≠ key y) = zs.filter (key · ≠ key y) := by
        rw [List.filter_append, List.filter_cons_of_neg (by simpa using hy)]
        simp
      simp only [List.map_cons, hy, List.mem_cons_self, if_true]
      split
      · rfl
      · rw [hleft]
    · by_cases hmem : key x ∈ xs.map key
      · simp only [hmem, List.map_cons, List.mem_cons_of_mem, if_true]
      · have hnew : key x ∉ (y :: xs).map key := by simpa [hy] using hmem
        rw [if_neg hmem, if_neg hnew, List.filter_append, List.filter_cons_of_pos (by simpa using hy)]
        rfl

/-- A leader stays one as more values follow. -/
theorem mem_leaders_append (hx : x ∈ leaders key xs) (ys : List β) :
    x ∈ leaders key (xs ++ ys) := by
  induction xs with
  | nil => cases hx
  | cons y xs ih =>
    rw [List.cons_append, leaders]
    rcases List.mem_cons.mp hx with rfl | hx
    · exact List.mem_cons_self
    · obtain ⟨hx, hne⟩ := List.mem_filter.mp hx
      exact List.mem_cons_of_mem _ (List.mem_filter.mpr ⟨ih hx, hne⟩)

/-- Leaders are found before as after reading each value off another. -/
theorem leaders_map (f : γ → β) (key : β → κ) (xs : List γ) :
    leaders key (xs.map f) = (leaders (key ∘ f) xs).map f := by
  induction xs with
  | nil => rfl
  | cons x xs ih => simp [leaders, ih, List.filter_map, Function.comp_def]

end Leaders

section Search

variable {key : β → κ} {join : β → β → β}

/-- A change at a key changes nothing where the key does not stand. -/
theorem map_ite_of_notMem {ys : List β} {k : κ} (h : k ∉ ys.map key) (f : β → β) :
    (ys.map fun y => if key y = k then f y else y) = ys := by
  refine (List.map_congr_left fun y hy => if_neg ?_).trans ys.map_id
  rintro rfl
  exact h (List.mem_map_of_mem hy)

/-- Only which values share a key matters, not what the keys are. -/
theorem insert_congr {κ' : Type} [DecidableEq κ'] {key' : β → κ'}
    (h : ∀ x y, key x = key y ↔ key' x = key' y) (x : β) (ys : List β) :
    insert key join x ys = insert key' join x ys := by
  induction ys with
  | nil => rfl
  | cons y ys ih =>
    rw [insert, insert, ih]
    exact if_congr (h y x) rfl rfl

theorem insert_of_notMem {x : β} {ys : List β} (h : key x ∉ ys.map key) :
    insert key join x ys = ys ++ [x] := by
  induction ys with
  | nil => rfl
  | cons y ys ih =>
    rw [List.map_cons, List.mem_cons, not_or] at h
    rw [insert, if_neg fun heq => h.1 heq.symm, ih h.2, List.cons_append]

/-- Where no key is repeated nothing is joined. -/
theorem foldl_insert_of_nodup {ys xs : List β} (h : ((ys ++ xs).map key).Nodup) :
    xs.foldl (fun ys x => insert key join x ys) ys = ys ++ xs := by
  induction xs generalizing ys with
  | nil => exact (List.append_nil ys).symm
  | cons x xs ih =>
    have hnew : key x ∉ ys.map key := by
      rw [List.map_append, List.nodup_append] at h
      exact fun hx => h.2.2 _ hx _ List.mem_cons_self rfl
    rw [List.foldl_cons, insert_of_notMem hnew, ih (by simpa using h)]
    exact List.append_assoc ys [x] xs

/-- A value joins the one place at which its key stands. -/
theorem insert_of_mem {x : β} {ys : List β} (hys : (ys.map key).Nodup) (h : key x ∈ ys.map key) :
    insert key join x ys = ys.map fun y => if key y = key x then join y x else y := by
  induction ys with
  | nil => simp at h
  | cons y ys ih =>
    obtain ⟨hy, hys⟩ := List.nodup_cons.mp hys
    rw [insert, List.map_cons]
    by_cases heq : key y = key x
    · rw [if_pos heq, if_pos heq, map_ite_of_notMem (heq ▸ hy)]
    · have hmem : key x ∈ ys.map key := (List.mem_cons.mp h).resolve_left fun h => heq h.symm
      rw [if_neg heq, if_neg heq, ih hys hmem]

/-- One more value joins the leader that shares its key, last. -/
theorem joined_concat {xs : List β} {x : β} (hx : x ∈ leaders key xs) (y : β) :
    joined key join (xs ++ [y]) x =
      if key y = key x then join (joined key join xs x) y else joined key join xs x := by
  obtain ⟨ys, hys⟩ := exists_filter_eq_cons hx
  rw [joined, joined, List.filter_append, hys]
  by_cases heq : key y = key x
  · simp [heq]
  · simp [heq]

theorem joined_of_notMem {xs : List β} {x : β} (hx : key x ∉ xs.map key) :
    joined key join (xs ++ [x]) x = x := by
  have hnone : xs.filter (key · = key x) = [] := List.filter_eq_nil_iff.mpr fun y hy heq =>
    hx (of_decide_eq_true heq ▸ List.mem_map_of_mem hy)
  rw [joined, List.filter_append, hnone]
  simp

variable (hjoin : ∀ x y, key (join x y) = key x)
include hjoin

theorem key_joined (xs : List β) (x : β) : key (joined key join xs x) = key x :=
  List.foldlRecOn (motive := fun y : β => key y = key x) _ _ rfl
    fun y hy z _ => (hjoin y z).trans hy

theorem map_key_joined (xs ys : List β) : (ys.map (joined key join xs)).map key = ys.map key := by
  rw [List.map_map]
  exact List.map_congr_left fun x _ => key_joined hjoin xs x

/-- **What searching gives**: every value joins the first with its key, in order. -/
theorem foldl_insert_eq (xs : List β) : xs.foldl (fun ys x => insert key join x ys) [] =
    (leaders key xs).map (joined key join xs) := by
  induction xs using List.reverseRecOn with
  | nil => rfl
  | append_singleton xs x ih =>
    have hkeys := map_key_joined hjoin xs (leaders key xs)
    rw [List.foldl_append, List.foldl_cons, List.foldl_nil, ih, leaders_concat]
    by_cases hx : key x ∈ xs.map key
    · have hmem : key x ∈ ((leaders key xs).map (joined key join xs)).map key := by
        rw [hkeys]
        exact key_mem_leaders.mpr hx
      rw [if_pos hx, insert_of_mem (hkeys ▸ nodup_leaders key xs) hmem, List.map_map]
      apply List.map_congr_left
      intro y hy
      show (if key (joined key join xs y) = key x then _ else _) = _
      rw [joined_concat hy, key_joined hjoin]
      exact if_congr eq_comm rfl rfl
    · have hnew : key x ∉ ((leaders key xs).map (joined key join xs)).map key := by
        rw [hkeys]
        exact fun h => hx (key_mem_leaders.mp h)
      rw [if_neg hx, insert_of_notMem hnew, List.map_append, List.map_singleton,
        joined_of_notMem hx]
      congr 1
      apply List.map_congr_left
      intro y hy
      have hne : key x ≠ key y := fun heq =>
        hx (key_mem_leaders.mp (heq ▸ List.mem_map_of_mem hy))
      rw [joined_concat hy, if_neg hne]

end Search

/-! ## A table of places -/

/-- Changing the value at the place of a key changes just the values with that key. -/
theorem modify_eq_map {key : β → κ} {ys : List β} (hys : (ys.map key).Nodup) {place : ℕ} {y : β}
    (hy : ys[place]? = some y) (f : β → β) :
    ys.modify place f = ys.map fun z => if key z = key y then f z else z := by
  induction ys generalizing place with
  | nil => simp at hy
  | cons z ys ih =>
    obtain ⟨hz, hys⟩ := List.nodup_cons.mp hys
    cases place with
    | zero =>
      obtain rfl : z = y := by simpa using hy
      rw [List.modify_zero_cons, List.map_cons, if_pos rfl, map_ite_of_notMem hz]
    | succ place =>
      have hy : ys[place]? = some y := by simpa using hy
      have hne : key z ≠ key y := fun heq =>
        hz (heq ▸ List.mem_map_of_mem (List.mem_of_getElem? hy))
      rw [List.modify_succ_cons, List.map_cons, if_neg hne, ih hys hy]

omit [DecidableEq κ] in
/-- What stands at a place once one more value comes last. -/
theorem exists_getElem?_concat {key : β → κ} {ys : List β} {x : β} {k : κ} {place : ℕ} :
    (∃ y, (ys ++ [x])[place]? = some y ∧ key y = k) ↔
      (∃ y, ys[place]? = some y ∧ key y = k) ∨ ys.length = place ∧ key x = k := by
  rcases lt_trichotomy place ys.length with hlt | rfl | hlt
  · simp [List.getElem?_append_left hlt, hlt.ne']
  · simp
  · have hnone : ys[place]? = none := List.getElem?_eq_none hlt.le
    have hnone' : (ys ++ [x])[place]? = none := List.getElem?_eq_none (by simpa using hlt)
    simp [hnone, hnone', hlt.ne]

/-- The values joined so far, and the place of each key among them. -/
structure Table (β κ : Type) [DecidableEq κ] [Hashable κ] where
  values : List β
  places : Std.HashMap κ ℕ

namespace Table

variable [Hashable κ]

def empty : Table β κ := ⟨[], ∅⟩

/-- Join a value at the place of its key, or give it the next place. -/
def add (key : β → κ) (join : β → β → β) (t : Table β κ) (x : β) : Table β κ :=
  match t.places[key x]? with
  | some place => { t with values := t.values.modify place (join · x) }
  | none => ⟨t.values ++ [x], t.places.insert (key x) t.values.length⟩

/-- The table knows the place of every key among the values, and no other places. -/
def IsIndex (key : β → κ) (t : Table β κ) : Prop :=
  ∀ k place, t.places[k]? = some place ↔ ∃ x, t.values[place]? = some x ∧ key x = k

variable {key : β → κ} {join : β → β → β} {t : Table β κ}

theorem isIndex_empty : (empty : Table β κ).IsIndex key := by
  intro k place
  simp [empty]

/-- A key that the table does not know is none of the keys of the values. -/
theorem IsIndex.notMem (h : t.IsIndex key) {k : κ} (hk : t.places[k]? = none) :
    k ∉ t.values.map key := by
  intro hmem
  obtain ⟨x, hx, rfl⟩ := List.mem_map.mp hmem
  obtain ⟨place, hplace⟩ := List.getElem?_of_mem hx
  have hsome := (h (key x) place).mpr ⟨x, hplace, rfl⟩
  rw [hk] at hsome
  cases hsome

/-- No key stands at two places, since the table knows only one. -/
theorem IsIndex.nodup (h : t.IsIndex key) : (t.values.map key).Nodup := by
  rw [List.nodup_iff_injective_getElem]
  intro i j hij
  have hplace (i : Fin (t.values.map key).length) :
      t.places[(t.values.map key)[i]]? = some i.1 := by
    have hi : i.1 < t.values.length := by simpa using i.2
    exact (h _ _).mpr ⟨t.values[i.1], List.getElem?_eq_getElem hi, by simp⟩
  have heq : some i.1 = some j.1 := by
    rw [← hplace i, ← hplace j]
    exact congrArg (t.places[·]?) hij
  exact Fin.ext (Option.some.inj heq)

/-- One value through the table is one value by searching. -/
theorem IsIndex.values_add (h : t.IsIndex key) (x : β) :
    (t.add key join x).values = insert key join x t.values := by
  rw [add]
  split
  · next place hplace =>
    obtain ⟨y, hy, hkey⟩ := (h (key x) place).mp hplace
    have hmem : key x ∈ t.values.map key :=
      hkey ▸ List.mem_map_of_mem (List.mem_of_getElem? hy)
    rw [insert_of_mem h.nodup hmem, modify_eq_map h.nodup hy, hkey]
  · next hplace => rw [insert_of_notMem (h.notMem hplace)]

section Step

variable (hjoin : ∀ x y, key (join x y) = key x)
include hjoin

/-- **The places stay right** as values are joined, whatever the values become. -/
theorem IsIndex.add (h : t.IsIndex key) (x : β) : (t.add key join x).IsIndex key := by
  intro k place
  rw [Table.add]
  split
  · next known hknown =>
    -- The value at the known place has a new form and its old key.
    show t.places[k]? = some place ↔ ∃ y, (t.values.modify known _)[place]? = some y ∧ key y = k
    rw [h k place, List.getElem?_modify]
    cases t.values[place]? with
    | none => simp
    | some y =>
      by_cases heq : known = place
      · simp [heq, hjoin]
      · simp [heq]
  · next hunknown =>
    show (t.places.insert (key x) t.values.length)[k]? = some place ↔ _
    rw [Std.HashMap.getElem?_insert, exists_getElem?_concat, ← h k place]
    by_cases hk : key x = k
    · -- No earlier value has the new key, so that its place is the last one.
      subst hk
      simp [hunknown]
    · simp [hk]

/-- **The table gives what searching gives.** -/
theorem values_foldl_add (xs : List β) : (xs.foldl (Table.add key join) empty).values =
    xs.foldl (fun ys x => Grouping.insert key join x ys) [] := by
  have hrun (xs : List β) : ∀ t : Table β κ, t.IsIndex key →
      (xs.foldl (Table.add key join) t).values =
        xs.foldl (fun ys x => Grouping.insert key join x ys) t.values := by
    induction xs with
    | nil => exact fun _ _ => rfl
    | cons x xs ih =>
      intro t ht
      rw [List.foldl_cons, List.foldl_cons, ih _ (ht.add hjoin x), ht.values_add]
  exact hrun xs empty isIndex_empty

end Step

end Table

end AlgebraicModel.Grouping
