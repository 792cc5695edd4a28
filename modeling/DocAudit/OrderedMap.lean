namespace DocAudit

/-!
# Ordered maps

A map that remembers in which order its keys were first inserted. Inserting a
key again replaces its value and keeps its place, so a list of pairs becomes a
map in which a repeated key stands where it first stood, with its last value.
-/

/-- A map from keys to values, in the order in which the keys were first inserted. -/
structure OrderedMap (κ ν : Type) where
  entries : List (κ × ν)
  keysDistinct : (entries.map Prod.fst).Nodup

namespace OrderedMap

/-- The keys in order. -/
def keys (map : OrderedMap κ ν) : List κ :=
  map.entries.map Prod.fst

/-- The map without keys. -/
def empty : OrderedMap κ ν where
  entries := []
  keysDistinct := by simp

section Lookup

variable [DecidableEq κ]

/-- The value of the first pair with a key. -/
def find? (key : κ) : List (κ × ν) → Option ν
  | [] => none
  | entry :: rest =>
      if entry.1 = key then
        some entry.2
      else
        find? key rest

/-- Replace the value of the first pair with a key, or append a pair for it. -/
def put
    (key : κ)
    (value : ν) :
    List (κ × ν) → List (κ × ν)
  | [] => [(key, value)]
  | entry :: rest =>
      if entry.1 = key then
        (key, value) :: rest
      else
        entry :: put key value rest

/-- Putting a pair appends its key unless the key is there already. -/
theorem map_fst_put
    (key : κ)
    (value : ν)
    (entries : List (κ × ν)) :
    (put key value entries).map Prod.fst =
      if key ∈ entries.map Prod.fst then
        entries.map Prod.fst
      else
        entries.map Prod.fst ++ [key] := by
  induction entries with
  | nil => simp [put]
  | cons entry rest inductionHypothesis =>
      by_cases sameKey : entry.1 = key
      · simp [put, sameKey]
      · have otherKey : ¬ key = entry.1 := fun same => sameKey same.symm
        by_cases inRest : key ∈ rest.map Prod.fst
        · rw [if_pos inRest] at inductionHypothesis
          rw [if_pos (by simp only [List.map_cons, List.mem_cons, inRest, or_true])]
          simp only [put, if_neg sameKey, List.map_cons, inductionHypothesis]
        · rw [if_neg inRest] at inductionHypothesis
          rw [if_neg (by simp only [List.map_cons, List.mem_cons, otherKey, inRest,
            or_self, not_false_eq_true])]
          simp only [put, if_neg sameKey, List.map_cons, inductionHypothesis,
            List.cons_append]

/-- Putting a pair keeps the keys distinct. -/
theorem nodup_map_fst_put
    {key : κ}
    {value : ν}
    {entries : List (κ × ν)}
    (distinct : (entries.map Prod.fst).Nodup) :
    ((put key value entries).map Prod.fst).Nodup := by
  rw [map_fst_put]
  split
  · exact distinct
  · rename_i fresh
    rw [List.nodup_append]
    refine ⟨distinct, by simp, ?_⟩
    intro first firstMember second secondMember same
    have isKey : second = key := by simpa using secondMember
    subst same
    subst isKey
    exact fresh firstMember

/-- The value of a key. -/
def get? (map : OrderedMap κ ν) (key : κ) : Option ν :=
  find? key map.entries

/-- Give a key a value; a new key comes last. -/
def insert
    (map : OrderedMap κ ν)
    (key : κ)
    (value : ν) :
    OrderedMap κ ν where
  entries := put key value map.entries
  keysDistinct := nodup_map_fst_put map.keysDistinct

/-- Insert pairs one after the other. -/
def ofList (pairs : List (κ × ν)) : OrderedMap κ ν :=
  pairs.foldl (fun map pair => map.insert pair.1 pair.2) empty

/-- Looking up a key after putting a pair. -/
theorem find?_put
    (key other : κ)
    (value : ν)
    (entries : List (κ × ν)) :
    find? other (put key value entries) =
      if key = other then some value else find? other entries := by
  induction entries with
  | nil => simp [put, find?]
  | cons entry rest inductionHypothesis =>
      by_cases sameKey : entry.1 = key
      · by_cases found : key = other
        · simp [put, find?, sameKey, found]
        · simp [put, find?, sameKey, found]
      · by_cases atEntry : entry.1 = other
        · have otherKey : ¬ key = other := by
            intro same
            exact sameKey (atEntry.trans same.symm)
          rw [put, if_neg sameKey, if_neg otherKey]
          simp [find?, atEntry]
        · simp [put, find?, sameKey, atEntry, inductionHypothesis]

/-- An inserted key has its new value, and every other key keeps what it had. -/
theorem get?_insert
    (map : OrderedMap κ ν)
    (key other : κ)
    (value : ν) :
    (map.insert key value).get? other =
      if key = other then some value else map.get? other :=
  find?_put key other value map.entries

/-- With distinct keys, the value of a key is the one that stands in a pair with it. -/
theorem find?_eq_some_iff
    {key : κ}
    {value : ν}
    {entries : List (κ × ν)}
    (distinct : (entries.map Prod.fst).Nodup) :
    find? key entries = some value ↔ (key, value) ∈ entries := by
  induction entries with
  | nil => simp [find?]
  | cons entry rest inductionHypothesis =>
      obtain ⟨fresh, restDistinct⟩ := List.nodup_cons.mp distinct
      by_cases sameKey : entry.1 = key
      · subst sameKey
        have notInRest : (entry.1, value) ∉ rest := by
          intro member
          exact fresh (List.mem_map.mpr ⟨_, member, rfl⟩)
        simp [find?, notInRest, Prod.ext_iff, eq_comm]
      · have notHead : (key, value) ≠ entry := by
          intro isEntry
          exact sameKey (congrArg Prod.fst isEntry).symm
        simp [find?, sameKey, notHead, inductionHypothesis restDistinct]

/-- The values of a map are those of its entries. -/
theorem get?_eq_some_iff
    {map : OrderedMap κ ν}
    {key : κ}
    {value : ν} :
    map.get? key = some value ↔ (key, value) ∈ map.entries :=
  find?_eq_some_iff map.keysDistinct

/-- A key that has a value is among the keys. -/
theorem mem_keys_of_get?
    {map : OrderedMap κ ν}
    {key : κ}
    {value : ν}
    (found : map.get? key = some value) :
    key ∈ map.keys :=
  List.mem_map.mpr ⟨_, get?_eq_some_iff.mp found, rfl⟩

end Lookup

end OrderedMap

end DocAudit
