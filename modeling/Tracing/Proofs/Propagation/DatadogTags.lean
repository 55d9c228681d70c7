import Tracing.Propagation.Datadog
import Tracing.Proofs.Text.Reading

/-!
# The list of propagated tags

The text `key=value,key=value` of the Datadog tag header, and what comes back from it.

* `readTags_writePairs`: tags within the grammar (`IsPair`) come back unchanged;
* `isPair_of_readTags`: what is read is within the grammar, whatever the text was;
* `tagsSize_readTags`: what is read needs no more room than the text it was read from, so that writing it
  again stays below the limit.
-/

namespace Tracing.Datadog

open Text

/-! ### The grammar -/

/-- The key of a propagated tag: the common start and one or more characters from `!` to `~`, none of them
a comma or an equals sign. -/
def IsKey (key : List Char) : Prop :=
  ∃ rest, key = propagatedLead.toList ++ rest ∧ rest ≠ [] ∧
    ∀ c ∈ rest, 0x21 ≤ c.toNat ∧ c.toNat ≤ 0x7e ∧ c ≠ ',' ∧ c ≠ '='

/-- The value of a propagated tag: characters from the space to `~`, none of them a comma and the last one
no space. -/
def IsValue (value : List Char) : Prop :=
  (∀ c ∈ value, 0x20 ≤ c.toNat ∧ c.toNat ≤ 0x7e ∧ c ≠ ',') ∧ value.getLast? ≠ some ' '

/-- A propagated tag. -/
def IsPair (tag : String × String) : Prop := IsKey tag.1.toList ∧ IsValue tag.2.toList

/-- The text of a tag. -/
def pairText (tag : String × String) : List Char := tag.1.toList ++ '=' :: tag.2.toList

theorem isTagChar_iff (c : Char) :
    isTagChar c = true ↔ 0x20 ≤ c.toNat ∧ c.toNat ≤ 0x7e ∧ c ≠ ',' := by
  simp [isTagChar, and_assoc]

theorem toNat_ne_of_ne_space {c : Char} (h : c ≠ ' ') : c.toNat ≠ 0x20 :=
  fun heq => h (Char.toNat_inj.mp heq)

theorem ne_space_of_visible {c : Char} (h : 0x21 ≤ c.toNat) : c ≠ ' ' := by
  rintro rfl
  exact absurd h (by decide)

theorem not_mem_of_isKey {key : List Char} (h : IsKey key) : '=' ∉ key ∧ ',' ∉ key := by
  obtain ⟨rest, rfl, -, hrest⟩ := h
  have hlead : '=' ∉ propagatedLead.toList ∧ ',' ∉ propagatedLead.toList := by decide
  constructor
  · intro hmem
    rcases List.mem_append.mp hmem with hmem | hmem
    · exact hlead.1 hmem
    · exact (hrest _ hmem).2.2.2 rfl
  · intro hmem
    rcases List.mem_append.mp hmem with hmem | hmem
    · exact hlead.2 hmem
    · exact (hrest _ hmem).2.2.1 rfl

theorem isTagKey_of_isKey {key : List Char} (h : IsKey key) : isTagKey key = true := by
  obtain ⟨rest, rfl, hne, hrest⟩ := h
  unfold isTagKey
  rw [dropLead?_append]
  simp only [Bool.and_eq_true, Bool.not_eq_true', List.isEmpty_eq_false_iff, List.all_eq_true,
    isTagChar_iff, bne_iff_ne]
  refine ⟨hne, fun c hc => ?_⟩
  obtain ⟨hlow, hhigh, hcomma, -⟩ := hrest c hc
  exact ⟨⟨by omega, hhigh, hcomma⟩, ne_space_of_visible hlow⟩

theorem isKey_of_isTagKey {key : List Char} (h : isTagKey key = true) (hfree : '=' ∉ key) :
    IsKey key := by
  unfold isTagKey at h
  split at h
  · next rest hlead =>
    have hkey := eq_append_of_dropLead? hlead
    simp only [Bool.and_eq_true, Bool.not_eq_true', List.isEmpty_eq_false_iff, List.all_eq_true,
      isTagChar_iff, bne_iff_ne] at h
    refine ⟨rest, hkey, h.1, fun c hc => ?_⟩
    obtain ⟨⟨hlow, hhigh, hcomma⟩, hspace⟩ := h.2 c hc
    have hne := toNat_ne_of_ne_space hspace
    refine ⟨by omega, hhigh, hcomma, ?_⟩
    rintro rfl
    exact hfree (hkey ▸ List.mem_append_right _ hc)
  · cases h

theorem isValue_of_isTagValue {value : List Char} (h : isTagValue value = true)
    (hlast : value.getLast? ≠ some ' ') : IsValue value :=
  ⟨fun c hc => (isTagChar_iff c).mp (List.all_eq_true.mp h c hc), hlast⟩

/-! ### One pair -/

theorem comma_not_mem_pairText {tag : String × String} (h : IsPair tag) : ',' ∉ pairText tag := by
  intro hmem
  rcases List.mem_append.mp hmem with hmem | hmem
  · exact (not_mem_of_isKey h.1).2 hmem
  · rcases List.mem_cons.mp hmem with heq | hmem
    · exact absurd heq (by decide)
    · exact (h.2.1 _ hmem).2.2 rfl

theorem trim_pairText {tag : String × String} (h : IsPair tag) : trim (pairText tag) = pairText tag := by
  obtain ⟨⟨rest, hkey, -, -⟩, hchars, hlast⟩ := h
  refine trim_eq_self (fun c hc => ?_) (fun c hc => ?_)
  · have hhead : (pairText tag).head? = some '_' := by
      unfold pairText
      rw [hkey]
      rfl
    rw [hhead] at hc
    cases hc
    decide
  · unfold pairText at hc
    rw [List.getLast?_append, List.getLast?_cons] at hc
    cases hvalue : tag.2.toList.getLast? with
    | none =>
      rw [hvalue] at hc
      cases hc
      decide
    | some d =>
      rw [hvalue] at hc hlast
      change some d = some c at hc
      cases hc
      obtain ⟨hlow, hhigh, -⟩ := hchars c (List.mem_of_getLast? hvalue)
      have hne := toNat_ne_of_ne_space fun heq => hlast (congrArg some heq)
      exact isBlank_of_visible (by omega) hhigh

theorem readPair_pairText {tag : String × String} (h : IsPair tag) :
    readPair (pairText tag) = some tag := by
  have hvalue : isTagValue tag.2.toList = true := by
    simp only [isTagValue, List.all_eq_true, isTagChar_iff]
    exact h.2.1
  unfold readPair
  rw [trim_pairText h, pairText, splitOnce_append (not_mem_of_isKey h.1).1]
  simp [isTagKey_of_isKey h.1, hvalue]

theorem of_readPair {pair : List Char} {tag : String × String} (h : readPair pair = some tag) :
    IsPair tag ∧ pairText tag = trim pair := by
  unfold readPair at h
  split at h
  · next key value hsplit =>
    split at h
    · next hvalid =>
      cases h
      obtain ⟨htrim, hfree⟩ := splitOnce_eq_some hsplit
      rw [Bool.and_eq_true] at hvalid
      have htext : pairText (String.ofList key, String.ofList value) = trim pair := by
        simp [pairText, htrim]
      have hlast : value.getLast? ≠ some ' ' := by
        intro hspace
        have htrimmed : (trim pair).getLast? = some ' ' := by
          rw [htrim, List.getLast?_append, List.getLast?_cons, hspace]
          rfl
        exact absurd (isBlank_getLast?_trim htrimmed) (by decide)
      unfold IsPair
      simp only [String.toList_ofList]
      exact ⟨⟨isKey_of_isTagKey hvalid.1 hfree, isValue_of_isTagValue hvalid.2 hlast⟩, htext⟩
    · cases h
  · cases h

/-! ### Lists of pairs -/

/-- The text of a tag list. -/
def writePairs (tags : Dict String) : List Char := joinWith [','] (tags.entries.map pairText)

theorem writeTags_eq (out : Outgoing) : writeTags out = String.ofList (writePairs (headerTags out)) := rfl

/-- A list is read pair by pair if no pair holds a comma. -/
theorem readTags_writePairs_eq {tags : Dict String} (h : ∀ tag ∈ tags.entries, ',' ∉ pairText tag) :
    readTags (writePairs tags) = .ofList (tags.entries.filterMap fun tag => readPair (pairText tag)) := by
  unfold readTags writePairs
  by_cases hne : tags.entries = []
  · rw [hne]
    rfl
  · have hsplit : splitOn ',' (joinWith [','] (tags.entries.map pairText)) = tags.entries.map pairText := by
      refine splitOn_joinWith (by simpa using hne) fun piece hpiece => ?_
      obtain ⟨tag, htag, rfl⟩ := List.mem_map.mp hpiece
      exact h tag htag
    rw [hsplit, List.filterMap_map]
    rfl

/-- **Tags within the grammar come back.** -/
theorem readTags_writePairs {tags : Dict String} (h : ∀ tag ∈ tags.entries, IsPair tag) :
    readTags (writePairs tags) = tags := by
  have hread : (tags.entries.filterMap fun tag => readPair (pairText tag)) = tags.entries :=
    (List.filterMap_congr fun tag htag => readPair_pairText (h tag htag)).trans List.filterMap_some
  rw [readTags_writePairs_eq fun tag htag => comma_not_mem_pairText (h tag htag), hread, Dict.ofList_entries]

/-- **What is read is within the grammar.** -/
theorem isPair_of_readTags {text : List Char} : ∀ tag ∈ (readTags text).entries, IsPair tag := by
  intro tag htag
  obtain ⟨pair, -, hpair⟩ := List.mem_filterMap.mp (Dict.mem_of_mem_ofList htag)
  exact (of_readPair hpair).1

/-! ### Sizes -/

/-- The room that tags need, with a comma behind each. -/
def tagsSize (tags : List (String × String)) : Nat := piecesSize (tags.map pairText)

theorem tagsSize_cons (tag : String × String) (tags : List (String × String)) :
    tagsSize (tag :: tags) = bytes (pairText tag) + 1 + tagsSize tags := rfl

theorem tagsSize_insert_le (key value : String) (tags : List (String × String)) :
    tagsSize (Entries.insert key value tags) ≤ bytes (pairText (key, value)) + 1 + tagsSize tags := by
  induction tags with
  | nil => exact Nat.le_refl _
  | cons head rest ih =>
    obtain ⟨k, v⟩ := head
    unfold Entries.insert
    split
    · exact Nat.le_refl _
    · split
      · rw [tagsSize_cons, tagsSize_cons]
        omega
      · rw [tagsSize_cons, tagsSize_cons]
        omega

theorem tagsSize_filter_le (p : String × String → Bool) (tags : List (String × String)) :
    tagsSize (tags.filter p) ≤ tagsSize tags := by
  induction tags with
  | nil => exact Nat.le_refl _
  | cons tag rest ih =>
    rw [List.filter_cons, tagsSize_cons]
    split
    · rw [tagsSize_cons]
      omega
    · omega

theorem tagsSize_erase_le {tags : Dict String} {key value : String} (h : tags.get? key = some value) :
    tagsSize (tags.erase key).entries + (bytes (pairText (key, value)) + 1) ≤ tagsSize tags.entries := by
  obtain ⟨entries, hordered⟩ := tags
  simp only [Dict.get?, Dict.erase, Dict.filter] at h ⊢
  clear hordered
  induction entries with
  | nil => cases h
  | cons head rest ih =>
    obtain ⟨k, v⟩ := head
    unfold Entries.get? at h
    rw [List.filter_cons, tagsSize_cons]
    split at h
    · next heq =>
      cases h
      subst heq
      have hrest := tagsSize_filter_le (fun e => e.1 != k) rest
      simp only [bne_self_eq_false, Bool.false_eq_true, if_false]
      omega
    · next hne =>
      have hrest := ih h
      rw [if_pos (by simpa using hne), tagsSize_cons]
      omega

theorem tagsSize_foldl_insert_le (pairs : List (String × String)) (tags : Dict String) :
    tagsSize (pairs.foldl (fun d e => d.insert e.1 e.2) tags).entries ≤
      tagsSize pairs + tagsSize tags.entries := by
  induction pairs generalizing tags with
  | nil => exact Nat.le_add_left _ _
  | cons tag rest ih =>
    have hinsert := tagsSize_insert_le tag.1 tag.2 tags.entries
    have hrest := ih (tags.insert tag.1 tag.2)
    rw [List.foldl_cons, tagsSize_cons]
    change tagsSize (Entries.insert tag.1 tag.2 tags.entries) ≤ bytes (pairText tag) + 1 + _ at hinsert
    change _ ≤ _ + tagsSize (Entries.insert tag.1 tag.2 tags.entries) at hrest
    omega

theorem tagsSize_filterMap_le (pieces : List (List Char)) :
    tagsSize (pieces.filterMap readPair) ≤ piecesSize pieces := by
  induction pieces with
  | nil => exact Nat.le_refl _
  | cons piece rest ih =>
    rw [List.filterMap_cons, piecesSize_cons]
    split
    · omega
    · next tag hread =>
      have hpiece := bytes_le_of_sublist (trim_sublist piece)
      rw [tagsSize_cons, (of_readPair hread).2]
      omega

/-- **What is read needs no more room than its text.** -/
theorem tagsSize_readTags (text : List Char) : tagsSize (readTags text).entries ≤ bytes text + 1 := by
  have htext : bytes text + 1 = piecesSize (splitOn ',' text) := by
    rw [← bytes_joinWith (splitOn_ne_nil ',' text), joinWith_splitOn]
  have hfold := tagsSize_foldl_insert_le ((splitOn ',' text).filterMap readPair) ∅
  have hpairs := tagsSize_filterMap_le (splitOn ',' text)
  change tagsSize (readTags text).entries ≤ _ + 0 at hfold
  omega

theorem bytes_writePairs {tags : Dict String} {n : Nat} (h : tagsSize tags.entries ≤ n + 1) :
    bytes (writePairs tags) ≤ n := by
  by_cases hne : tags.entries.map pairText = []
  · unfold writePairs
    rw [hne]
    exact Nat.zero_le _
  · have hsize := bytes_joinWith hne
    unfold tagsSize at h
    unfold writePairs
    omega

end Tracing.Datadog
