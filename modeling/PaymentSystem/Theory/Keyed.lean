/-
# PaymentSystem.Theory.Keyed -- totals over keyed stores

A keyed store is Mathlib's `AList` with a constant value type.  `total f m` sums
`f` over its values; mutating the value at a key (`AList.replace`) moves the total
by the difference of the two values (`total_replace`), and a nonnegative `f` is
bounded by its total at every key (`le_total`).

A store whose values know their own keys is a list of them, in any order: gathering
its values again gives the same store (`lookup_gather_values`).
-/
import Mathlib.Data.List.AList
import Mathlib.Data.List.Induction
import Mathlib.Algebra.BigOperators.Group.List.Basic
import Mathlib.Algebra.Order.BigOperators.Group.List
import Mathlib.Algebra.Order.Ring.Int

namespace PaymentSystem.Theory.Keyed

set_option autoImplicit false

/-- A finite map with values of one type. -/
abbrev Store (κ α : Type) := AList (fun _ : κ => α)

section Store

variable {κ α : Type} [DecidableEq κ]

/-- The sum of `f` over the values of a store. -/
def total (f : α → Int) (m : Store κ α) : Int := (m.entries.map fun e => f e.2).sum

/-- The entries of a store are one present entry and the rest. -/
theorem perm_of_lookup {m : Store κ α} {k : κ} {v : α} (found : m.lookup k = some v) :
    m.entries.Perm (⟨k, v⟩ :: (m.erase k).entries) := by
  have present : k ∈ m.entries.keys :=
    List.dlookup_isSome.1 (by rw [show m.entries.dlookup k = some v from found]; rfl)
  obtain ⟨w, l₁, l₂, fresh, split, erased⟩ := List.exists_of_kerase present
  have same : w = v := by
    have here : m.entries.dlookup k = some w := by
      apply List.mem_dlookup m.nodupKeys
      rw [split]
      simp
    exact Option.some.inj (here.symm.trans found)
  subst same
  rw [show (m.erase k).entries = l₁ ++ l₂ from erased, split]
  exact List.perm_middle

theorem total_erase (f : α → Int) {m : Store κ α} {k : κ} {v : α} (found : m.lookup k = some v) :
    total f m = f v + total f (m.erase k) := by
  unfold total
  rw [((perm_of_lookup found).map fun e => f e.2).sum_eq]
  simp

/-! ### Mutation in place -/

theorem entries_replace_cons (k : κ) (w : α) (e : Sigma fun _ : κ => α)
    (l : List (Sigma fun _ : κ => α)) :
    List.kreplace k w (e :: l) = if k = e.1 then ⟨k, w⟩ :: l else e :: List.kreplace k w l := by
  unfold List.kreplace
  by_cases same : k = e.1
  · rw [if_pos same]
    exact List.lookmap_cons_some _ _ (if_pos same)
  · rw [if_neg same]
    exact List.lookmap_cons_none _ _ (if_neg same)

theorem lookup_replace_self {m : Store κ α} {k : κ} {v : α} (found : m.lookup k = some v) (w : α) :
    (m.replace k w).lookup k = some w := by
  obtain ⟨l, nodup⟩ := m
  show List.dlookup k (List.kreplace k w l) = some w
  replace found : List.dlookup k l = some v := found
  clear nodup
  induction l with
  | nil => cases found
  | cons e l ih =>
    rw [entries_replace_cons]
    by_cases same : k = e.1
    · rw [if_pos same, List.dlookup_cons_eq]
    · rw [List.dlookup_cons_ne l e same] at found
      rw [if_neg same, List.dlookup_cons_ne _ e same]
      exact ih found

theorem lookup_replace_ne (m : Store κ α) {k k' : κ} (different : k' ≠ k) (w : α) :
    (m.replace k w).lookup k' = m.lookup k' := by
  obtain ⟨l, nodup⟩ := m
  show List.dlookup k' (List.kreplace k w l) = List.dlookup k' l
  clear nodup
  induction l with
  | nil => rfl
  | cons e l ih =>
    rw [entries_replace_cons]
    by_cases same : k = e.1
    · have ne : k' ≠ e.1 := same ▸ different
      rw [if_pos same, List.dlookup_cons_ne l e ne]
      exact List.dlookup_cons_ne l ⟨k, w⟩ different
    · rw [if_neg same]
      by_cases here : k' = e.1
      · obtain ⟨j, x⟩ := e
        subst here
        rw [List.dlookup_cons_eq, List.dlookup_cons_eq]
      · rw [List.dlookup_cons_ne _ e here, List.dlookup_cons_ne _ e here, ih]

theorem lookup_replace {m : Store κ α} {k : κ} {v : α} (found : m.lookup k = some v) (w : α)
    (k' : κ) : (m.replace k w).lookup k' = if k' = k then some w else m.lookup k' := by
  by_cases same : k' = k
  · rw [same, if_pos rfl, lookup_replace_self found]
  · rw [if_neg same, lookup_replace_ne m same]

theorem replace_self {m : Store κ α} {k : κ} {v : α} (found : m.lookup k = some v) :
    m.replace k v = m :=
  AList.ext (List.kreplace_self m.nodupKeys (AList.mem_lookup_iff.1 found))

/-- **Mutating the value at a key moves the total by the difference.** -/
theorem total_replace (f : α → Int) {m : Store κ α} {k : κ} {v : α} (found : m.lookup k = some v)
    (w : α) : total f (m.replace k w) = total f m - f v + f w := by
  obtain ⟨l, nodup⟩ := m
  show ((List.kreplace k w l).map fun e => f e.2).sum = (l.map fun e => f e.2).sum - f v + f w
  replace found : List.dlookup k l = some v := found
  clear nodup
  induction l with
  | nil => cases found
  | cons e l ih =>
    rw [entries_replace_cons]
    by_cases same : k = e.1
    · obtain ⟨j, x⟩ := e
      cases same
      rw [List.dlookup_cons_eq] at found
      cases found
      rw [if_pos rfl]
      simp only [List.map_cons, List.sum_cons]
      omega
    · rw [List.dlookup_cons_ne l e same] at found
      rw [if_neg same, List.map_cons, List.sum_cons, ih found, List.map_cons, List.sum_cons]
      omega

/-! ### Bounds -/

theorem total_nonneg {f : α → Int} {m : Store κ α} (nonneg : ∀ k v, m.lookup k = some v → 0 ≤ f v) :
    0 ≤ total f m := by
  apply List.sum_nonneg
  intro x member
  obtain ⟨⟨k, v⟩, present, rfl⟩ := List.mem_map.1 member
  exact nonneg k v (AList.mem_lookup_iff.2 present)

/-- **A nonnegative quantity is bounded by its total at every key.** -/
theorem le_total {f : α → Int} {m : Store κ α} (nonneg : ∀ k v, m.lookup k = some v → 0 ≤ f v)
    {k : κ} {v : α} (found : m.lookup k = some v) : f v ≤ total f m := by
  rw [total_erase f found]
  have rest : 0 ≤ total f (m.erase k) := by
    apply total_nonneg
    intro k' v' found'
    by_cases same : k' = k
    · subst same; simp at found'
    · exact nonneg k' v' (by rwa [AList.lookup_erase_ne same] at found')
  omega

omit [DecidableEq κ] in
theorem total_le_total {f g : α → Int} {m : Store κ α} (le : ∀ v, f v ≤ g v) :
    total f m ≤ total g m :=
  List.sum_le_sum fun e _ => le e.2

theorem total_congr {f g : α → Int} {m : Store κ α}
    (agree : ∀ k v, m.lookup k = some v → f v = g v) : total f m = total g m := by
  unfold total
  congr 1
  apply List.map_congr_left
  rintro ⟨k, v⟩ member
  exact agree k v (AList.mem_lookup_iff.2 member)

/-! ### Last write wins -/

/-- Insert values under their own keys, in order. -/
def gather (key : α → κ) (m : Store κ α) (l : List α) : Store κ α :=
  l.foldl (fun m a => m.insert (key a) a) m

/-- The last value of a list under a key. -/
def latest (key : α → κ) (l : List α) (k : κ) : Option α := l.reverse.find? fun a => key a = k

/-- The values of a store. -/
def values (m : Store κ α) : List α := m.entries.map fun e => e.2

/-- Every value is stored under its own key. -/
def SelfKeyed (key : α → κ) (m : Store κ α) : Prop := ∀ k a, m.lookup k = some a → key a = k

theorem gather_append (key : α → κ) (m : Store κ α) (xs ys : List α) :
    gather key m (xs ++ ys) = gather key (gather key m xs) ys := List.foldl_append ..

theorem latest_snoc (key : α → κ) (l : List α) (a : α) (k : κ) :
    latest key (l ++ [a]) k = if key a = k then some a else latest key l k := by
  rw [latest, List.reverse_append, List.reverse_singleton, List.singleton_append, List.find?_cons]
  by_cases same : key a = k
  · simp [same]
  · simp [same, latest]

theorem latest_append (key : α → κ) (xs ys : List α) (k : κ) :
    latest key (xs ++ ys) k = (latest key ys k).or (latest key xs k) := by
  rw [latest, List.reverse_append, List.find?_append]
  rfl

/-- The last value of a list of lists is the last of one of them. -/
theorem latest_flatMap {β : Type} {key : α → κ} {l : List β} {f : β → List α} {k : κ} {a : α}
    (found : latest key (l.flatMap f) k = some a) : ∃ b ∈ l, latest key (f b) k = some a := by
  induction l with
  | nil => cases found
  | cons b l ih =>
    rw [List.flatMap_cons, latest_append, Option.or_eq_some_iff] at found
    rcases found with later | ⟨-, here⟩
    · obtain ⟨b', member, last⟩ := ih later
      exact ⟨b', List.mem_cons_of_mem _ member, last⟩
    · exact ⟨b, List.mem_cons_self, here⟩

theorem lookup_insert_self_key (key : α → κ) (m : Store κ α) (a : α) (k : κ) :
    (m.insert (key a) a).lookup k = if key a = k then some a else m.lookup k := by
  by_cases same : key a = k
  · rw [if_pos same, ← same, AList.lookup_insert]
  · rw [if_neg same, AList.lookup_insert_ne (Ne.symm same)]

/-- **The last value inserted under a key is the one found there.** -/
theorem lookup_gather (key : α → κ) (m : Store κ α) (l : List α) (k : κ) :
    (gather key m l).lookup k = (latest key l k).or (m.lookup k) := by
  induction l using List.reverseRecOn with
  | nil => rfl
  | append_singleton l a ih =>
    rw [gather_append, latest_snoc]
    show ((gather key m l).insert (key a) a).lookup k = _
    rw [lookup_insert_self_key, ih]
    split <;> rfl

theorem lookup_gather_empty (key : α → κ) (l : List α) (k : κ) :
    (gather key ∅ l).lookup k = latest key l k := by
  rw [lookup_gather, AList.lookup_empty, Option.or_none]

theorem latest_mem {key : α → κ} {l : List α} {k : κ} {a : α} (found : latest key l k = some a) :
    a ∈ l ∧ key a = k := by
  have member := List.mem_of_find?_eq_some found
  have holds := List.find?_some found
  exact ⟨List.mem_reverse.1 member, of_decide_eq_true holds⟩

theorem latest_eq_none {key : α → κ} {l : List α} {k : κ} :
    latest key l k = none ↔ ∀ a ∈ l, key a ≠ k := by
  simp [latest]

/-- Under distinct keys the last is the only one. -/
theorem latest_of_mem {key : α → κ} {l : List α} (nodup : (l.map key).Nodup) {a : α}
    (member : a ∈ l) : latest key l (key a) = some a := by
  cases found : latest key l (key a) with
  | none => exact absurd rfl (latest_eq_none.1 found a member)
  | some b =>
    obtain ⟨there, same⟩ := latest_mem found
    rw [List.inj_on_of_nodup_map nodup there member same]

theorem mem_values {m : Store κ α} {a : α} : a ∈ values m ↔ ∃ k, m.lookup k = some a := by
  constructor
  · intro member
    obtain ⟨⟨k, b⟩, present, rfl⟩ := List.mem_map.1 member
    exact ⟨k, AList.mem_lookup_iff.2 present⟩
  · rintro ⟨k, found⟩
    exact List.mem_map.2 ⟨⟨k, a⟩, AList.mem_lookup_iff.1 found, rfl⟩

theorem map_key_values {key : α → κ} {m : Store κ α} (own : SelfKeyed key m) :
    (values m).map key = m.keys := by
  unfold values AList.keys List.keys
  rw [List.map_map]
  apply List.map_congr_left
  rintro ⟨k, a⟩ present
  exact own k a (AList.mem_lookup_iff.2 present)

theorem nodup_values {key : α → κ} {m : Store κ α} (own : SelfKeyed key m) :
    ((values m).map key).Nodup := by
  rw [map_key_values own]
  exact m.keys_nodup

/-- **The values of a store, gathered in any order, are the store.** -/
theorem lookup_gather_values {key : α → κ} {m : Store κ α} (own : SelfKeyed key m) {order : List α}
    (perm : order.Perm (values m)) (k : κ) : (gather key ∅ order).lookup k = m.lookup k := by
  rw [lookup_gather_empty]
  have nodup : (order.map key).Nodup := (perm.map key).nodup_iff.2 (nodup_values own)
  cases found : m.lookup k with
  | none =>
    refine latest_eq_none.2 fun a member same => ?_
    obtain ⟨k', there⟩ := mem_values.1 (perm.mem_iff.1 member)
    rw [← own k' a there, same, found] at there
    cases there
  | some a =>
    have member : a ∈ order := perm.mem_iff.2 (mem_values.2 ⟨k, found⟩)
    rw [← own k a found]
    exact latest_of_mem nodup member

theorem dlookup_map_value {β : Type} (f : α → β) (l : List (Sigma fun _ : κ => α)) (k : κ) :
    (l.map fun e => (⟨e.1, f e.2⟩ : Sigma fun _ : κ => β)).dlookup k = (l.dlookup k).map f := by
  induction l with
  | nil => rfl
  | cons e l ih =>
    obtain ⟨j, a⟩ := e
    rw [List.map_cons]
    by_cases same : k = j
    · subst same
      rw [List.dlookup_cons_eq, List.dlookup_cons_eq]
      rfl
    · have first := List.dlookup_cons_ne l (⟨j, a⟩ : Sigma fun _ : κ => α) same
      rw [first, ← ih]
      exact List.dlookup_cons_ne _ _ same

/-- Stores with the same values under the same keys list them in some order each. -/
theorem perm_values {β : Type} {m : Store κ α} {m' : Store κ β} {f : α → β}
    (same : ∀ k, m'.lookup k = (m.lookup k).map f) : ((values m).map f).Perm (values m') := by
  have nodup : (m.entries.map fun e => (⟨e.1, f e.2⟩ : Sigma fun _ : κ => β)).NodupKeys := by
    rw [List.NodupKeys, List.keys, List.map_map]
    exact m.nodupKeys
  have perm : (m.entries.map fun e => (⟨e.1, f e.2⟩ : Sigma fun _ : κ => β)).Perm m'.entries := by
    refine List.lookup_ext nodup m'.nodupKeys fun k b => ?_
    rw [dlookup_map_value]
    exact Iff.of_eq (congrArg (b ∈ ·) (same k).symm)
  have values_ := perm.map fun e => e.2
  rw [List.map_map] at values_
  rw [values, List.map_map]
  exact values_

theorem SelfKeyed.insert {key : α → κ} {m : Store κ α} (own : SelfKeyed key m) (a : α) :
    SelfKeyed key (m.insert (key a) a) := by
  intro k b found
  rw [lookup_insert_self_key] at found
  split at found
  · rename_i same
    cases found
    exact same
  · exact own k b found

theorem SelfKeyed.gather {key : α → κ} {m : Store κ α} (own : SelfKeyed key m) (l : List α) :
    SelfKeyed key (gather key m l) := by
  induction l generalizing m with
  | nil => exact own
  | cons a l ih => exact ih (own.insert a)

theorem selfKeyed_empty (key : α → κ) : SelfKeyed key (∅ : Store κ α) := by
  intro k a found
  rw [AList.lookup_empty] at found
  cases found

end Store

end PaymentSystem.Theory.Keyed
