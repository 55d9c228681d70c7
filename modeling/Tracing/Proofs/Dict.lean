import Tracing.Dict

/-!
# Dictionaries made of lists

A dictionary that is made of a list holds the last value that the list has for a key (`get?_ofList`). Where
the list does not disagree with itself about a key, this is any of them (`get?_ofList_of_mem`); the entries
of a dictionary never do (`get?_of_mem`).
-/

namespace Tracing

namespace Entries

variable {α : Type} {key : String} {value : α} {entries : List (String × α)}

theorem get?_append (key : String) (entries later : List (String × α)) :
    get? key (entries ++ later) = (get? key entries).or (get? key later) := by
  induction entries with
  | nil => rfl
  | cons head rest ih =>
    simp only [List.cons_append, get?]
    split
    · rfl
    · exact ih

theorem get?_eq_none (h : ∀ e ∈ entries, e.1 ≠ key) : get? key entries = none := by
  induction entries with
  | nil => rfl
  | cons head rest ih =>
    obtain ⟨hhead, hrest⟩ := List.forall_mem_cons.mp h
    rw [get?, if_neg hhead]
    exact ih hrest

theorem get?_map {β : Type} (f : α → β) (key : String) (entries : List (String × α)) :
    get? key (entries.map fun e => (e.1, f e.2)) = (get? key entries).map f := by
  induction entries with
  | nil => rfl
  | cons e rest ih =>
    rw [List.map_cons, get?, get?, ih]
    split <;> rfl

theorem get?_filterMap {β : Type} (key : String) (f : β → Option (String × α)) (xs : List β) :
    get? key (xs.filterMap f) =
      xs.findSome? fun x => (f x).bind fun e => if e.1 = key then some e.2 else none := by
  induction xs with
  | nil => rfl
  | cons x rest ih =>
    rw [List.filterMap_cons, List.findSome?_cons, ← ih]
    cases f x with
    | none => rfl
    | some e =>
      simp only [get?, Option.bind_some]
      split
      · rfl
      · rfl

theorem get?_isSome (h : (key, value) ∈ entries) : ∃ found, get? key entries = some found := by
  induction entries with
  | nil => cases h
  | cons head rest ih =>
    unfold get?
    split
    · exact ⟨_, rfl⟩
    · next hne =>
      rcases List.mem_cons.mp h with rfl | h
      · exact absurd rfl hne
      · exact ih h

/-- Where every key stands once, the order does not matter. -/
theorem get?_reverse (h : (entries.map Prod.fst).Nodup) (key : String) :
    get? key entries.reverse = get? key entries := by
  induction entries with
  | nil => rfl
  | cons e rest ih =>
    obtain ⟨hkey, hrest⟩ := List.nodup_cons.mp h
    rw [List.reverse_cons, get?_append, ih hrest]
    show (get? key rest).or (if e.1 = key then some e.2 else none) = if e.1 = key then some e.2 else get? key rest
    split
    · next heq =>
      have hnone : get? key rest = none := get?_eq_none fun other hother hname =>
        hkey (heq.trans hname.symm ▸ List.mem_map_of_mem hother)
      rw [hnone, Option.none_or]
    · exact Option.or_none

theorem get?_of_getElem? (h : (entries.map Prod.fst).Nodup) {i : Nat} {e : String × α}
    (hi : entries[i]? = some e) : get? e.1 entries = some e.2 := by
  induction entries generalizing i with
  | nil => cases hi
  | cons first rest ih =>
    obtain ⟨hfirst, hrest⟩ := List.nodup_cons.mp h
    cases i with
    | zero =>
      obtain rfl := Option.some.inj hi
      exact if_pos rfl
    | succ i =>
      have hne : first.1 ≠ e.1 := fun heq => hfirst (heq ▸ List.mem_map_of_mem (List.mem_of_getElem? hi))
      exact (if_neg hne).trans (ih hrest hi)

end Entries

namespace Dict

variable {α : Type} {key : String} {value : α}

theorem get?_of_mem {d : Dict α} (h : (key, value) ∈ d.entries) : d.get? key = some value := by
  obtain ⟨entries, hordered⟩ := d
  simp only [get?] at h ⊢
  induction entries with
  | nil => cases h
  | cons head rest ih =>
    obtain ⟨hlt, hrest⟩ := List.pairwise_cons.mp hordered
    unfold Entries.get?
    rcases List.mem_cons.mp h with rfl | h
    · simp
    · have hne : head.1 ≠ key := fun heq => by
        have hlater := hlt _ h
        rw [heq] at hlater
        exact String.lt_irrefl key hlater
      rw [if_neg hne]
      exact ih hrest h

theorem mem_keys {d : Dict α} : key ∈ d.keys ↔ ∃ value, d.get? key = some value := by
  constructor
  · intro h
    obtain ⟨e, he, rfl⟩ := List.mem_map.mp h
    exact ⟨e.2, get?_of_mem he⟩
  · rintro ⟨value, h⟩
    exact List.mem_map.mpr ⟨_, mem_of_get? h, rfl⟩

theorem get?_eq_none {d : Dict α} (h : key ∉ d.keys) : d.get? key = none :=
  Option.eq_none_iff_forall_ne_some.mpr fun value hvalue => h (mem_keys.mpr ⟨value, hvalue⟩)

theorem entries_eq_nil_iff {d : Dict α} : d.entries = [] ↔ ∀ key, d.get? key = none := by
  constructor
  · intro h key
    unfold get?
    rw [h]
    rfl
  · intro h
    cases hentries : d.entries with
    | nil => rfl
    | cons head rest =>
      have hmem : (head.1, head.2) ∈ d.entries := by rw [hentries]; exact List.mem_cons_self
      have hget := get?_of_mem hmem
      rw [h head.1] at hget
      cases hget

theorem lt_of_entries_eq {d : Dict α} {front back : List (String × α)} {e : String × α}
    (h : d.entries = front ++ e :: back) : ∀ later ∈ back, e.1 < later.1 := by
  have hordered := d.ordered
  unfold Entries.Ordered at hordered
  rw [h, List.pairwise_append, List.pairwise_cons] at hordered
  exact hordered.2.1.1

theorem get?_foldl (entries : List (String × α)) (d : Dict α) (key : String) :
    (entries.foldl (fun d e => d.insert e.1 e.2) d).get? key =
      (Entries.get? key entries.reverse).or (d.get? key) := by
  induction entries generalizing d with
  | nil => rfl
  | cons head rest ih =>
    rw [List.foldl_cons, ih, get?_insert, List.reverse_cons, Entries.get?_append, Option.or_assoc]
    congr 1
    unfold Entries.get?
    split <;> rfl

/-- **The last value of a key stays.** -/
theorem get?_ofList (entries : List (String × α)) (key : String) :
    (ofList entries).get? key = Entries.get? key entries.reverse := by
  unfold ofList
  rw [get?_foldl, get?_empty, Option.or_none]

theorem get?_ofList_append {entries later : List (String × α)} (h : ∀ e ∈ later, e.1 ≠ key) :
    (ofList (entries ++ later)).get? key = (ofList entries).get? key := by
  have hlater : Entries.get? key later.reverse = none :=
    Entries.get?_eq_none fun e he => h e (List.mem_reverse.mp he)
  rw [get?_ofList, get?_ofList, List.reverse_append, Entries.get?_append, hlater, Option.none_or]

theorem get?_ofList_concat (entries : List (String × α)) (key : String) (value : α) :
    (ofList (entries ++ [(key, value)])).get? key = some value := by
  simp [get?_ofList, Entries.get?]

theorem exists_get?_ofList_append {entries later : List (String × α)} (h : (key, value) ∈ later) :
    ∃ found, (ofList (entries ++ later)).get? key = some found ∧ (key, found) ∈ later := by
  obtain ⟨found, hfound⟩ := Entries.get?_isSome (List.mem_reverse.mpr h)
  refine ⟨found, ?_, List.mem_reverse.mp (Entries.mem_of_get? hfound)⟩
  rw [get?_ofList, List.reverse_append, Entries.get?_append, hfound, Option.some_or]

theorem mem_of_get?_ofList {entries : List (String × α)} (h : (ofList entries).get? key = some value) :
    (key, value) ∈ entries :=
  mem_of_mem_ofList (mem_of_get? h)

theorem get?_ofList_of_mem {entries : List (String × α)} (h : (key, value) ∈ entries)
    (hsame : ∀ other, (key, other) ∈ entries → other = value) :
    (ofList entries).get? key = some value := by
  obtain ⟨found, hfound, hmem⟩ := @exists_get?_ofList_append _ _ _ [] entries h
  exact hfound.trans (congrArg some (hsame found hmem))

end Dict

end Tracing
