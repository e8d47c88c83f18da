import Mathlib
import Std.Data.ExtTreeMap
import TemplateCascade.Value.Basic

namespace TemplateCascade

/-!
# Entries of ordered maps

What is listed of an ordered map, told by look-up: its values, and its keys, which are different from each
other.  Of entries in a list, which are looked up by name too: where one that is found, or that is there
after another was put in, has come from.
-/

section

variable {Entry : Type} {entries : List (String × Entry)} {name : String} {entry : Entry}

theorem mem_of_entryNamed? (found : entryNamed? entries name = some entry) : (name, entry) ∈ entries := by
  rcases List.lookup_eq_some_iff.mp found with ⟨front, behind, rfl, _⟩
  exact List.mem_append_right front List.mem_cons_self

theorem mem_putEntry {found : String × Entry} (member : found ∈ putEntry entries name entry) :
    found ∈ entries ∨ found.2 = entry := by
  induction entries with
  | nil =>
      rw [putEntry, List.mem_singleton] at member
      exact .inr (congrArg Prod.snd member)
  | cons first rest inductionHypothesis =>
      rw [putEntry] at member
      split at member
      · rcases List.mem_cons.mp member with rfl | member
        · exact .inr rfl
        · exact .inl (List.mem_cons_of_mem _ member)
      · rcases List.mem_cons.mp member with rfl | member
        · exact .inl List.mem_cons_self
        · exact (inductionHypothesis member).imp_left (List.mem_cons_of_mem _)

end

/-- Positions and other numbers are listed in ascending order. -/
theorem pairwise_keys {Entry : Type} (entries : Std.ExtTreeMap Nat Entry) :
    entries.keys.Pairwise (· < ·) :=
  entries.ordered_keys.imp Nat.compare_eq_lt.mp

section

variable {Key Entry : Type} [Ord Key] [Std.TransOrd Key]

theorem values_eq_map_toList (entries : Std.ExtTreeMap Key Entry) :
    entries.values = entries.toList.map Prod.snd := by
  rcases entries with ⟨⟨quotient⟩⟩
  induction quotient using Quotient.ind with
  | _ tree =>
      rcases tree with ⟨tree, wellFormed⟩
      change tree.values = (Std.DTreeMap.Internal.Impl.Const.toList tree).map Prod.snd
      rw [Std.DTreeMap.Internal.Impl.values_eq_map_snd,
        Std.DTreeMap.Internal.Impl.Const.toList_eq_toListModel_map, List.map_map]
      rfl

variable [Std.LawfulEqOrd Key]

theorem getElem?_insert_eq [DecidableEq Key] (entries : Std.ExtTreeMap Key Entry)
    (key other : Key) (entry : Entry) :
    (entries.insert key entry)[other]? = if other = key then some entry else entries[other]? := by
  rw [Std.ExtTreeMap.getElem?_insert]
  by_cases same : other = key
  · rw [if_pos same, if_pos (Std.compare_eq_iff_eq.mpr same.symm)]
  · rw [if_neg same, if_neg fun equal => same (Std.compare_eq_iff_eq.mp equal).symm]

theorem getElem?_erase_eq [DecidableEq Key] (entries : Std.ExtTreeMap Key Entry) (key other : Key) :
    (entries.erase key)[other]? = if other = key then none else entries[other]? := by
  rw [Std.ExtTreeMap.getElem?_erase]
  by_cases same : other = key
  · rw [if_pos same, if_pos (Std.compare_eq_iff_eq.mpr same.symm)]
  · rw [if_neg same, if_neg fun equal => same (Std.compare_eq_iff_eq.mp equal).symm]

omit [Std.LawfulEqOrd Key] in
theorem mem_iff_getElem? {entries : Std.ExtTreeMap Key Entry} {key : Key} :
    key ∈ entries ↔ ∃ entry, entries[key]? = some entry := by
  rw [Std.ExtTreeMap.mem_iff_isSome_getElem?, Option.isSome_iff_exists]

theorem mem_values {entries : Std.ExtTreeMap Key Entry} {entry : Entry} :
    entry ∈ entries.values ↔ ∃ key : Key, entries[key]? = some entry := by
  rw [values_eq_map_toList, List.mem_map]
  constructor
  · rintro ⟨⟨key, _⟩, member, rfl⟩
    exact ⟨key, Std.ExtTreeMap.mem_toList_iff_getElem?_eq_some.mp member⟩
  · rintro ⟨key, found⟩
    exact ⟨(key, entry), Std.ExtTreeMap.mem_toList_iff_getElem?_eq_some.mpr found, rfl⟩

theorem nodup_keys (entries : Std.ExtTreeMap Key Entry) : entries.keys.Nodup :=
  entries.distinct_keys.imp fun different same => different (Std.compare_eq_iff_eq.mpr same)

/-! ## Entries that tell their keys -/

section Keyed

variable {entries : Std.ExtTreeMap Key Entry} {keyOf : Entry → Key}
  (keyed : ∀ (key : Key) (entry : Entry), entries[key]? = some entry → keyOf entry = key)

include keyed

/-- The keys are the values' keys in order. -/
theorem map_values : entries.values.map keyOf = entries.keys := by
  rw [values_eq_map_toList, List.map_map, ← Std.ExtTreeMap.map_fst_toList_eq_keys]
  refine List.map_congr_left fun pair member => ?_
  exact keyed pair.1 pair.2 (Std.ExtTreeMap.mem_toList_iff_getElem?_eq_some.mp member)

theorem keyed_insert [DecidableEq Key] {key : Key} {entry : Entry} (tells : keyOf entry = key) :
    ∀ (other : Key) (found : Entry), (entries.insert key entry)[other]? = some found →
      keyOf found = other := by
  intro other found isFound
  rw [getElem?_insert_eq] at isFound
  split at isFound
  · next same =>
      rw [Option.some.injEq] at isFound
      rw [← isFound, tells, same]
  · exact keyed other found isFound

theorem keyed_erase [DecidableEq Key] (erased : Key) :
    ∀ (other : Key) (found : Entry), (entries.erase erased)[other]? = some found →
      keyOf found = other := by
  intro other found isFound
  rw [getElem?_erase_eq] at isFound
  split at isFound
  · cases isFound
  · exact keyed other found isFound

end Keyed

/-! ## Entering items one by one -/

variable {Item : Type} [DecidableEq Key] {list : List Item} {keyOf : Item → Key}
  {entryOf : Item → Entry} {known : Std.ExtTreeMap Key Entry} {key : Key} {entry : Entry}

/-- What is found after items have been entered is from one of them, or was there before. -/
theorem foldl_insert_eq_some
    (found : (list.foldl (fun known item => known.insert (keyOf item) (entryOf item)) known)[key]? =
      some entry) :
    (∃ item ∈ list, keyOf item = key ∧ entryOf item = entry) ∨
      ((∀ item ∈ list, keyOf item ≠ key) ∧ known[key]? = some entry) := by
  induction list generalizing known with
  | nil => exact Or.inr ⟨fun item member => absurd member List.not_mem_nil, found⟩
  | cons first rest inductionHypothesis =>
      rcases inductionHypothesis found with ⟨item, member, isItem⟩ | ⟨others, found⟩
      · exact Or.inl ⟨item, List.mem_cons_of_mem _ member, isItem⟩
      · rw [getElem?_insert_eq] at found
        split at found
        · next same =>
            rw [Option.some.injEq] at found
            exact Or.inl ⟨first, List.mem_cons_self, same.symm, found⟩
        · next different =>
            refine Or.inr ⟨?_, found⟩
            rw [List.forall_mem_cons]
            exact ⟨Ne.symm different, others⟩

omit [DecidableEq Key] in
theorem mem_foldl_insert :
    key ∈ list.foldl (fun known item => known.insert (keyOf item) (entryOf item)) known ↔
      (∃ item ∈ list, keyOf item = key) ∨ key ∈ known := by
  induction list generalizing known with
  | nil => simp
  | cons first rest inductionHypothesis =>
      rw [List.foldl_cons, inductionHypothesis, Std.ExtTreeMap.mem_insert, Std.compare_eq_iff_eq,
        List.exists_mem_cons_iff, or_left_comm, or_assoc]

/-- When items with one key have one entry, every item is found. -/
theorem foldl_insert_eq_some_iff
    (functional : ∀ first ∈ list, ∀ second ∈ list, keyOf first = keyOf second →
      entryOf first = entryOf second) :
    (list.foldl (fun known item => known.insert (keyOf item) (entryOf item)) known)[key]? =
        some entry ↔
      (∃ item ∈ list, keyOf item = key ∧ entryOf item = entry) ∨
        ((∀ item ∈ list, keyOf item ≠ key) ∧ known[key]? = some entry) := by
  refine ⟨foldl_insert_eq_some, ?_⟩
  have present : ∀ other, key ∈
      list.foldl (fun known item => known.insert (keyOf item) (entryOf item)) known →
      (∀ found, (list.foldl (fun known item => known.insert (keyOf item) (entryOf item)) known)[key]? =
        some found → found = other) →
      (list.foldl (fun known item => known.insert (keyOf item) (entryOf item)) known)[key]? =
        some other := by
    intro other member only
    rcases mem_iff_getElem?.mp member with ⟨found, isFound⟩
    exact only found isFound ▸ isFound
  rintro (⟨item, member, isKey, isEntry⟩ | ⟨others, before⟩)
  · refine present entry (mem_foldl_insert.mpr (Or.inl ⟨item, member, isKey⟩)) fun found isFound => ?_
    rcases foldl_insert_eq_some isFound with ⟨other, otherMember, sameKey, rfl⟩ | ⟨others, _⟩
    · rw [← isEntry]
      exact functional other otherMember item member (sameKey.trans isKey.symm)
    · exact absurd isKey (others item member)
  · have member := mem_iff_getElem?.mpr ⟨entry, before⟩
    refine present entry (mem_foldl_insert.mpr (Or.inr member)) fun found isFound => ?_
    rcases foldl_insert_eq_some isFound with ⟨other, otherMember, sameKey, _⟩ | ⟨_, still⟩
    · exact absurd sameKey (others other otherMember)
    · rw [before, Option.some.injEq] at still
      exact still.symm

/-- The values of a map, entered under their keys, are found as the map has them. -/
theorem foldl_insert_values {items : Std.ExtTreeMap Key Item}
    (keyed : ∀ (key : Key) (item : Item), items[key]? = some item → keyOf item = key) (key : Key) :
    (items.values.foldl (fun known item => known.insert (keyOf item) (entryOf item))
      (∅ : Std.ExtTreeMap Key Entry))[key]? = items[key]?.map entryOf := by
  refine Option.ext fun entry => ?_
  have functional : ∀ first ∈ items.values, ∀ second ∈ items.values, keyOf first = keyOf second →
      entryOf first = entryOf second := by
    intro first firstMember second secondMember same
    rcases mem_values.mp firstMember with ⟨firstKey, firstFound⟩
    rcases mem_values.mp secondMember with ⟨secondKey, secondFound⟩
    rw [keyed firstKey first firstFound, keyed secondKey second secondFound] at same
    rw [same, secondFound, Option.some.injEq] at firstFound
    rw [firstFound]
  rw [foldl_insert_eq_some_iff functional, Option.map_eq_some_iff]
  constructor
  · rintro (⟨item, member, isKey, isEntry⟩ | ⟨_, found⟩)
    · rcases mem_values.mp member with ⟨itemKey, found⟩
      rw [keyed itemKey item found] at isKey
      exact ⟨item, isKey ▸ found, isEntry⟩
    · simp at found
  · rintro ⟨item, found, isEntry⟩
    exact Or.inl ⟨item, mem_values.mpr ⟨key, found⟩, keyed key item found, isEntry⟩

end

end TemplateCascade
