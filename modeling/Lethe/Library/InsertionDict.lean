import Mathlib.Data.List.Induction
import Mathlib.Data.List.Nodup

/-!
# Dictionaries in insertion order

A list of entries with distinct keys.  A new key goes to the end; a key that is
there keeps its place.  Walking over the entries visits every key once, in the
order in which the keys came.
-/

namespace DictEntries

variable {Key Value : Type} [DecidableEq Key]

/-- Change the value of a key in its place, or append the key. -/
def alter
    (key : Key)
    (change : Option Value → Value) :
    List (Key × Value) → List (Key × Value)
  | [] =>
      [(key, change none)]
  | entry :: rest =>
      if entry.1 = key then
        (entry.1, change (some entry.2)) :: rest
      else
        entry :: alter key change rest

/-- The value of a key. -/
def get?
    (key : Key) :
    List (Key × Value) → Option Value
  | [] =>
      none
  | entry :: rest =>
      if entry.1 = key then
        some entry.2
      else
        get? key rest

/-- The keys after a change. -/
theorem mem_keys_alter
    {key other : Key}
    {change : Option Value → Value}
    (entries : List (Key × Value)) :
    other ∈ (alter key change entries).map Prod.fst ↔
      other = key ∨ other ∈ entries.map Prod.fst := by
  induction entries with
  | nil =>
      simp [alter]
  | cons entry rest inductionHypothesis =>
      unfold alter
      split
      · next same =>
          simp [same]
      · simp only [List.map_cons, List.mem_cons, inductionHypothesis]
        tauto

/-- Distinct keys stay distinct. -/
theorem nodup_alter
    {key : Key}
    {change : Option Value → Value}
    {entries : List (Key × Value)}
    (distinct : (entries.map Prod.fst).Nodup) :
    ((alter key change entries).map Prod.fst).Nodup := by
  induction entries with
  | nil =>
      simp [alter]
  | cons entry rest inductionHypothesis =>
      rw [List.map_cons, List.nodup_cons] at distinct
      unfold alter
      split
      · rw [List.map_cons, List.nodup_cons]
        exact distinct
      · next different =>
          rw [List.map_cons, List.nodup_cons, mem_keys_alter]
          refine ⟨?_, inductionHypothesis distinct.2⟩
          rintro (isKey | inRest)
          · exact different isKey
          · exact distinct.1 inRest

/-- The values after a change. -/
theorem get?_alter
    {key other : Key}
    {change : Option Value → Value}
    (entries : List (Key × Value)) :
    get? other (alter key change entries) =
      if other = key then
        some (change (get? key entries))
      else
        get? other entries := by
  induction entries with
  | nil =>
      simp only [alter, get?, eq_comm]
  | cons entry rest inductionHypothesis =>
      by_cases same : entry.1 = key
      · by_cases isKey : other = key
        · simp [alter, get?, same, isKey]
        · simp [alter, get?, same, isKey, Ne.symm isKey]
      · by_cases isKey : other = key
        · subst isKey
          simp [alter, get?, same, inductionHypothesis]
        · simp [alter, get?, same, isKey, inductionHypothesis]

/-- The value of a key is in an entry of the key. -/
theorem mem_of_get?
    {entries : List (Key × Value)}
    {key : Key}
    {value : Value}
    (found : get? key entries = some value) :
    (key, value) ∈ entries := by
  induction entries with
  | nil =>
      simp [get?] at found
  | cons entry rest inductionHypothesis =>
      unfold get? at found
      split at found
      · next same =>
          rw [← same, ← Option.some.inj found]
          exact List.mem_cons_self
      · exact List.mem_cons_of_mem _ (inductionHypothesis found)

/-- With distinct keys the entries are the values of the keys. -/
theorem mem_iff_get?
    {entries : List (Key × Value)}
    (distinct : (entries.map Prod.fst).Nodup)
    {key : Key}
    {value : Value} :
    (key, value) ∈ entries ↔ get? key entries = some value := by
  refine ⟨?_, mem_of_get?⟩
  intro isEntry
  induction entries with
  | nil =>
      simp at isEntry
  | cons entry rest inductionHypothesis =>
      rw [List.map_cons, List.nodup_cons] at distinct
      unfold get?
      rcases List.mem_cons.mp isEntry with isFirst | later
      · simp [← isFirst]
      · have different : entry.1 ≠ key := by
          intro same
          exact distinct.1 (List.mem_map.mpr ⟨_, later, same.symm⟩)
        rw [if_neg different]
        exact inductionHypothesis distinct.2 later

end DictEntries

/-- A dictionary that keeps its keys in the order in which they came. -/
structure InsertionDict (Key Value : Type) where
  entries : List (Key × Value)
  distinct : (entries.map Prod.fst).Nodup

namespace InsertionDict

variable {Key Value : Type}

/-- The dictionary without keys. -/
def empty :
    InsertionDict Key Value where
  entries := []
  distinct := List.nodup_nil

/-- The entries whose keys pass a test. -/
def filterKeys
    (dict : InsertionDict Key Value)
    (test : Key → Bool) :
    InsertionDict Key Value where
  entries := dict.entries.filter fun entry => test entry.1
  distinct := dict.distinct.sublist (List.filter_sublist.map Prod.fst)

variable [DecidableEq Key]

/-- The value of a key. -/
def get?
    (dict : InsertionDict Key Value)
    (key : Key) :
    Option Value :=
  DictEntries.get? key dict.entries

/-- Set the value of a key. -/
def set
    (dict : InsertionDict Key Value)
    (key : Key)
    (value : Value) :
    InsertionDict Key Value where
  entries := DictEntries.alter key (fun _ => value) dict.entries
  distinct := DictEntries.nodup_alter dict.distinct

/-- The entries are the values of the keys. -/
theorem mem_entries
    {dict : InsertionDict Key Value}
    {key : Key}
    {value : Value} :
    (key, value) ∈ dict.entries ↔ dict.get? key = some value :=
  DictEntries.mem_iff_get? dict.distinct

@[simp] theorem get?_empty
    (key : Key) :
    (empty : InsertionDict Key Value).get? key = none :=
  rfl

/-- The values after setting one. -/
theorem get?_set
    (dict : InsertionDict Key Value)
    (key other : Key)
    (value : Value) :
    (dict.set key value).get? other =
      if other = key then
        some value
      else
        dict.get? other :=
  DictEntries.get?_alter dict.entries

/-- A key that passes the test keeps its value. -/
theorem get?_filterKeys
    (dict : InsertionDict Key Value)
    {test : Key → Bool}
    {key : Key}
    (passes : test key = true)
    {value : Value} :
    (dict.filterKeys test).get? key = some value ↔
      dict.get? key = some value := by
  rw [← mem_entries, ← mem_entries]
  simp [filterKeys, passes]

section Items

variable
  {Item : Type}
  {keyOf : Item → Key}
  {valueOf : Item → Value}

/-- A dictionary made of items with distinct keys holds exactly the items. -/
theorem get?_foldl_set_iff
    {items : List Item}
    (distinct : (items.map keyOf).Nodup)
    {key : Key}
    {value : Value} :
    (items.foldl (fun current item => current.set (keyOf item) (valueOf item))
      empty).get? key = some value ↔
      ∃ item ∈ items, keyOf item = key ∧ valueOf item = value := by
  induction items using List.reverseRecOn with
  | nil =>
      simp
  | append_singleton items last inductionHypothesis =>
      rw [List.map_append, List.map_cons, List.map_nil,
        List.nodup_append_comm, List.singleton_append,
        List.nodup_cons] at distinct
      rw [List.foldl_append, List.foldl_cons, List.foldl_nil, get?_set]
      split
      · next same =>
          subst same
          constructor
          · intro isValue
            exact ⟨last, by simp, rfl, Option.some.inj isValue⟩
          · rintro ⟨item, isItem, sameKey, isValue⟩
            rcases List.mem_append.mp isItem with earlier | isLast
            · exact absurd (sameKey ▸ List.mem_map_of_mem earlier) distinct.1
            · rw [List.mem_singleton] at isLast
              rw [← isValue, isLast]
      · next different =>
          rw [inductionHypothesis distinct.2]
          constructor
          · rintro ⟨item, isItem, isEntry⟩
            exact ⟨item, List.mem_append_left _ isItem, isEntry⟩
          · rintro ⟨item, isItem, sameKey, isValue⟩
            rcases List.mem_append.mp isItem with earlier | isLast
            · exact ⟨item, earlier, sameKey, isValue⟩
            · rw [List.mem_singleton] at isLast
              rw [isLast] at sameKey
              exact absurd sameKey.symm different

end Items

end InsertionDict
