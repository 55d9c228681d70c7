/-!
# Dictionaries

A dictionary from text to values keeps its entries in increasing order of their keys, so two
dictionaries that answer every look-up alike are equal (`Dict.ext_get?`) and the order in which entries
were written leaves no trace. The list operations under it also serve the members of a JSON object.
-/

namespace Tracing

/-! ### Entry lists -/

namespace Entries

variable {α : Type}

/-- The first value stored under `key`. -/
def get? (key : String) : List (String × α) → Option α
  | [] => none
  | (k, v) :: rest => if k = key then some v else get? key rest

/-- Writes `value` under `key`: over an old value, else before the first larger key. -/
def insert (key : String) (value : α) : List (String × α) → List (String × α)
  | [] => [(key, value)]
  | (k, v) :: rest =>
    if key < k then (key, value) :: (k, v) :: rest
    else if k = key then (key, value) :: rest
    else (k, v) :: insert key value rest

/-- Entries stand in strictly increasing order of their keys. -/
def Ordered (entries : List (String × α)) : Prop :=
  entries.Pairwise fun a b => a.1 < b.1

theorem ordered_nil : Ordered ([] : List (String × α)) := List.Pairwise.nil

theorem mem_insert {key : String} {value : α} {entries : List (String × α)} {e : String × α}
    (h : e ∈ insert key value entries) : e = (key, value) ∨ e ∈ entries := by
  induction entries with
  | nil => simpa [insert] using h
  | cons head rest ih =>
    obtain ⟨k, v⟩ := head
    simp only [insert] at h
    split at h
    · simpa using h
    · split at h
      · rcases List.mem_cons.mp h with h | h
        · exact .inl h
        · exact .inr (List.mem_cons_of_mem _ h)
      · rcases List.mem_cons.mp h with h | h
        · exact .inr (h ▸ List.mem_cons_self)
        · exact (ih h).imp id (List.mem_cons_of_mem _)

theorem lt_of_not_lt_of_ne {a b : String} (h : ¬ a < b) (hne : ¬ b = a) : b < a := by
  rcases Std.lt_trichotomy a b with h' | h' | h'
  · exact absurd h' h
  · exact absurd h'.symm hne
  · exact h'

theorem ordered_insert (key : String) (value : α) {entries : List (String × α)}
    (h : Ordered entries) : Ordered (insert key value entries) := by
  induction entries with
  | nil => exact List.pairwise_singleton _ _
  | cons head rest ih =>
    obtain ⟨k, v⟩ := head
    have hk := (List.pairwise_cons.mp h).1
    have hr := (List.pairwise_cons.mp h).2
    simp only [insert]
    split
    · next hlt =>
      refine List.pairwise_cons.mpr ⟨fun e he => ?_, h⟩
      rcases List.mem_cons.mp he with rfl | he
      · exact hlt
      · exact String.lt_trans hlt (hk e he)
    · next hlt =>
      split
      · next heq =>
        subst heq
        exact List.pairwise_cons.mpr ⟨hk, hr⟩
      · next hne =>
        refine List.pairwise_cons.mpr ⟨fun e he => ?_, ih hr⟩
        rcases mem_insert he with rfl | he
        · exact lt_of_not_lt_of_ne hlt hne
        · exact hk e he

theorem get?_insert (key key' : String) (value : α) (entries : List (String × α)) :
    get? key' (insert key value entries) = if key = key' then some value else get? key' entries := by
  induction entries with
  | nil => simp [insert, get?]
  | cons head rest ih =>
    obtain ⟨k, v⟩ := head
    simp only [insert]
    split
    · simp [get?]
    · split
      · next heq =>
        subst heq
        by_cases hk : k = key' <;> simp [get?, hk]
      · next hne =>
        simp only [get?, ih]
        by_cases hk : k = key'
        · subst hk
          simp [Ne.symm hne]
        · simp [hk]

theorem mem_of_get? {key : String} {value : α} {entries : List (String × α)}
    (h : get? key entries = some value) : (key, value) ∈ entries := by
  induction entries with
  | nil => cases h
  | cons head rest ih =>
    unfold get? at h
    split at h
    · next heq =>
      cases h
      exact heq ▸ List.mem_cons_self
    · exact List.mem_cons_of_mem _ (ih h)

theorem get?_eq_none_of_lt {key : String} {entries : List (String × α)}
    (h : ∀ e ∈ entries, key < e.1) : get? key entries = none := by
  induction entries with
  | nil => rfl
  | cons head rest ih =>
    have hne : head.1 ≠ key := fun heq =>
      String.lt_irrefl key (heq ▸ h head List.mem_cons_self)
    simp only [get?, hne, if_false]
    exact ih fun e he => h e (List.mem_cons_of_mem _ he)

/-- Ordered entry lists that answer every look-up alike are equal. -/
theorem ext_get? {xs ys : List (String × α)} (hx : Ordered xs) (hy : Ordered ys)
    (h : ∀ key, get? key xs = get? key ys) : xs = ys := by
  induction xs generalizing ys with
  | nil =>
    cases ys with
    | nil => rfl
    | cons y ys => have := h y.1; simp [get?] at this
  | cons x xs ih =>
    obtain ⟨hx1, hx2⟩ := List.pairwise_cons.mp hx
    cases ys with
    | nil => have := h x.1; simp [get?] at this
    | cons y ys =>
      obtain ⟨hy1, hy2⟩ := List.pairwise_cons.mp hy
      have hkey : x.1 = y.1 := by
        rcases Std.lt_trichotomy x.1 y.1 with hlt | heq | hgt
        · have hnone : get? x.1 ((y.1, y.2) :: ys) = none :=
            get?_eq_none_of_lt fun e he => by
              rcases List.mem_cons.mp he with rfl | he
              · exact hlt
              · exact String.lt_trans hlt (hy1 e he)
          have := h x.1
          rw [hnone] at this
          simp [get?] at this
        · exact heq
        · have hnone : get? y.1 ((x.1, x.2) :: xs) = none :=
            get?_eq_none_of_lt fun e he => by
              rcases List.mem_cons.mp he with rfl | he
              · exact hgt
              · exact String.lt_trans hgt (hx1 e he)
          have := h y.1
          rw [hnone] at this
          simp [get?] at this
      have hval : x.2 = y.2 := by
        have := h x.1
        simpa [get?, hkey] using this
      have hrest : xs = ys := ih hx2 hy2 fun key => by
        by_cases hk : x.1 = key
        · subst hk
          rw [get?_eq_none_of_lt hx1, hkey, get?_eq_none_of_lt hy1]
        · have := h key
          simpa [get?, hk, hkey ▸ hk] using this
      rw [hrest, Prod.ext hkey hval]

end Entries

/-! ### Dictionaries -/

/-- A finite map from text to values, its entries in increasing order of their keys. -/
structure Dict (α : Type) where
  entries : List (String × α)
  ordered : Entries.Ordered entries

namespace Dict

variable {α : Type}

instance [DecidableEq α] : DecidableEq (Dict α) := fun a b =>
  if h : a.entries = b.entries then
    .isTrue (by cases a; cases b; cases h; rfl)
  else
    .isFalse fun heq => h (heq ▸ rfl)

def empty : Dict α := ⟨[], Entries.ordered_nil⟩

instance : EmptyCollection (Dict α) := ⟨empty⟩
instance : Inhabited (Dict α) := ⟨empty⟩

/-- The value under `key`. -/
def get? (d : Dict α) (key : String) : Option α := Entries.get? key d.entries

/-- Writes `value` under `key`, over an old value. -/
def insert (d : Dict α) (key : String) (value : α) : Dict α :=
  ⟨Entries.insert key value d.entries, Entries.ordered_insert key value d.ordered⟩

/-- Keeps the entries that satisfy `p`. -/
def filter (p : String → α → Bool) (d : Dict α) : Dict α :=
  ⟨d.entries.filter fun e => p e.1 e.2, d.ordered.filter _⟩

/-- Takes `key` and its value out. -/
def erase (d : Dict α) (key : String) : Dict α := d.filter fun k _ => k != key

/-- Writes the entries of a list one after the other: the last value under a key stays. -/
def ofList (entries : List (String × α)) : Dict α :=
  entries.foldl (fun d e => d.insert e.1 e.2) ∅

/-- The keys in increasing order. -/
def keys (d : Dict α) : List String := d.entries.map (·.1)

def isEmpty (d : Dict α) : Bool := d.entries.isEmpty

/-- Writes every entry of `other` over those of `d`. -/
def union (d other : Dict α) : Dict α :=
  other.entries.foldl (fun d e => d.insert e.1 e.2) d

@[simp] theorem get?_empty (key : String) : (∅ : Dict α).get? key = none := rfl

theorem get?_insert (d : Dict α) (key key' : String) (value : α) :
    (d.insert key value).get? key' = if key = key' then some value else d.get? key' :=
  Entries.get?_insert key key' value d.entries

theorem get?_erase (d : Dict α) (key key' : String) :
    (d.erase key).get? key' = if key = key' then none else d.get? key' := by
  obtain ⟨entries, _⟩ := d
  simp only [erase, filter, get?]
  induction entries with
  | nil => simp [Entries.get?]
  | cons head rest ih =>
    have ih := ih (by assumption |> fun h => (List.pairwise_cons.mp h).2)
    by_cases hk : head.1 = key
    · subst hk
      by_cases hk' : head.1 = key' <;> simp_all [Entries.get?]
    · by_cases hk' : head.1 = key'
      · subst hk'
        simp [Entries.get?, hk, Ne.symm hk]
      · simp_all [Entries.get?]

/-- Dictionaries that answer every look-up alike are equal. -/
theorem ext_get? {a b : Dict α} (h : ∀ key, a.get? key = b.get? key) : a = b := by
  obtain ⟨xs, hx⟩ := a
  obtain ⟨ys, hy⟩ := b
  have : xs = ys := Entries.ext_get? hx hy h
  subst this
  rfl

/-! ### Entries and look-ups -/

theorem mem_of_get? {d : Dict α} {key : String} {value : α} (h : d.get? key = some value) :
    (key, value) ∈ d.entries :=
  Entries.mem_of_get? h

theorem get?_filter (d : Dict α) (p : String → Bool) (key : String) :
    (d.filter fun k _ => p k).get? key = if p key then d.get? key else none := by
  obtain ⟨entries, hordered⟩ := d
  simp only [filter, get?]
  clear hordered
  induction entries with
  | nil => simp [Entries.get?]
  | cons head rest ih =>
    obtain ⟨k, v⟩ := head
    by_cases hk : k = key
    · subst hk
      cases hp : p k <;> simp_all [Entries.get?]
    · cases hp : p k <;> simp_all [Entries.get?]

/-- Writing ordered entries over a dictionary. -/
theorem get?_foldl_insert {entries : List (String × α)} (h : Entries.Ordered entries) (d : Dict α)
    (key : String) :
    (entries.foldl (fun d e => d.insert e.1 e.2) d).get? key =
      (Entries.get? key entries).or (d.get? key) := by
  induction entries generalizing d with
  | nil => rfl
  | cons head rest ih =>
    obtain ⟨k, v⟩ := head
    obtain ⟨hlt, hrest⟩ := List.pairwise_cons.mp h
    have hget : Entries.get? key ((k, v) :: rest) =
        if k = key then some v else Entries.get? key rest := rfl
    rw [List.foldl_cons, ih hrest, get?_insert, hget]
    by_cases hk : k = key
    · subst hk
      rw [Entries.get?_eq_none_of_lt hlt]
      simp
    · simp [hk]

/-- A dictionary is made again from its entries. -/
theorem ofList_entries (d : Dict α) : ofList d.entries = d := by
  refine ext_get? fun key => ?_
  unfold ofList
  rw [get?_foldl_insert d.ordered, get?_empty, Option.or_none]
  rfl

theorem mem_foldl_insert {entries : List (String × α)} {d : Dict α} {e : String × α}
    (h : e ∈ (entries.foldl (fun d e => d.insert e.1 e.2) d).entries) : e ∈ entries ∨ e ∈ d.entries := by
  induction entries generalizing d with
  | nil => exact .inr h
  | cons head rest ih =>
    rcases ih h with h | h
    · exact .inl (List.mem_cons_of_mem _ h)
    · rcases Entries.mem_insert h with rfl | h
      · exact .inl List.mem_cons_self
      · exact .inr h

/-- Nothing but the listed entries is in the dictionary made of them. -/
theorem mem_of_mem_ofList {entries : List (String × α)} {e : String × α}
    (h : e ∈ (ofList entries).entries) : e ∈ entries :=
  (mem_foldl_insert h).resolve_right List.not_mem_nil

end Dict

end Tracing
