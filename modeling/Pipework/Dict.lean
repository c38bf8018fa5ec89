/-!
# Entries kept by key

A `Dict` is a list of key and value pairs. `insert` keeps the pairs in increasing order of their
keys, so a dictionary built from nothing by insertion has each key once and lists its entries in
one order only. The main statements say what a look-up finds after `insert` and after `erase`.
-/

namespace Pipework

/-- Values filed under text keys. -/
structure Dict (α : Type) where
  entries : List (String × α)

namespace Dict

variable {α β : Type}

/-- The dictionary without entries. -/
def empty : Dict α := ⟨[]⟩

instance : Inhabited (Dict α) := ⟨empty⟩

/-- The value of the first pair with the key. -/
def findEntry (key : String) : List (String × α) → Option α
  | [] => none
  | (head, held) :: rest => if key = head then some held else findEntry key rest

/-- The value under a key, if the key is there. -/
def get? (dict : Dict α) (key : String) : Option α :=
  findEntry key dict.entries

/-- Whether there is a value under the key. -/
def contains (dict : Dict α) (key : String) : Bool :=
  (dict.get? key).isSome

/-- The keys, in the order of the entries. -/
def keys (dict : Dict α) : List String :=
  dict.entries.map Prod.fst

/-- Whether there is no entry. -/
def isEmpty (dict : Dict α) : Bool :=
  dict.entries.isEmpty

/-- Puts an entry in front of the first larger key, or in the place of an equal one. -/
def insertEntry (key : String) (value : α) : List (String × α) → List (String × α)
  | [] => [(key, value)]
  | (head, held) :: rest =>
      if key = head then (key, value) :: rest
      else if key < head then (key, value) :: (head, held) :: rest
      else (head, held) :: insertEntry key value rest

/-- Files a value under a key; a value already filed there gives way. -/
def insert (dict : Dict α) (key : String) (value : α) : Dict α :=
  ⟨insertEntry key value dict.entries⟩

/-- Takes out what is filed under a key. -/
def erase (dict : Dict α) (key : String) : Dict α :=
  ⟨dict.entries.filter fun entry => entry.1 != key⟩

/-- Files the pairs one after the other: of two with the same key the later one stays. -/
def ofList (pairs : List (String × α)) : Dict α :=
  pairs.foldl (fun dict pair => dict.insert pair.1 pair.2) empty

/-- Changes every value and no key. -/
def mapValues (change : α → β) (dict : Dict α) : Dict β :=
  ⟨dict.entries.map fun entry => (entry.1, change entry.2)⟩

/-- The dictionary with one entry. -/
def single (key : String) (value : α) : Dict α :=
  empty.insert key value

@[simp]
theorem get?_empty (key : String) : (empty : Dict α).get? key = none := rfl

theorem findEntry_insertEntry (key other : String) (value : α) (entries : List (String × α)) :
    findEntry other (insertEntry key value entries) =
      if other = key then some value else findEntry other entries := by
  induction entries with
  | nil => rfl
  | cons entry rest ih =>
      obtain ⟨head, held⟩ := entry
      by_cases hkey : key = head
      · subst hkey
        by_cases h : other = key <;> simp [insertEntry, findEntry, h]
      · by_cases hlt : key < head
        · simp [insertEntry, findEntry, hkey, hlt]
        · by_cases h : other = head
          · subst h
            simp [insertEntry, findEntry, hkey, hlt, Ne.symm hkey]
          · simp [insertEntry, findEntry, hkey, hlt, h, ih]

/-- After an insertion the key holds the new value and every other key what it held before. -/
theorem get?_insert (dict : Dict α) (key other : String) (value : α) :
    (dict.insert key value).get? other = if other = key then some value else dict.get? other :=
  findEntry_insertEntry key other value dict.entries

@[simp]
theorem get?_insert_self (dict : Dict α) (key : String) (value : α) :
    (dict.insert key value).get? key = some value := by
  simp [get?_insert]

theorem get?_insert_of_ne (dict : Dict α) {key other : String} (value : α) (h : other ≠ key) :
    (dict.insert key value).get? other = dict.get? other := by
  simp [get?_insert, h]

theorem findEntry_filter (key other : String) (entries : List (String × α)) :
    findEntry other (entries.filter fun entry => entry.1 != key) =
      if other = key then none else findEntry other entries := by
  induction entries with
  | nil => simp [findEntry]
  | cons entry rest ih =>
      obtain ⟨head, held⟩ := entry
      by_cases hhead : head = key
      · subst hhead
        by_cases h : other = head
        · simpa [h] using ih
        · simpa [findEntry, h] using ih
      · by_cases h : other = head
        · subst h
          simp [findEntry, hhead]
        · simp [findEntry, hhead, h, ih]

/-- After taking out a key every other key holds what it held before. -/
theorem get?_erase (dict : Dict α) (key other : String) :
    (dict.erase key).get? other = if other = key then none else dict.get? other :=
  findEntry_filter key other dict.entries

@[simp]
theorem get?_single (key other : String) (value : α) :
    (single key value).get? other = if other = key then some value else none := by
  simp [single, get?_insert]

/-- A value that is found stands in an entry with its key. -/
theorem mem_entries_of_get? {dict : Dict α} {key : String} {value : α}
    (h : dict.get? key = some value) : (key, value) ∈ dict.entries := by
  obtain ⟨entries⟩ := dict
  unfold get? at h
  induction entries with
  | nil => simp [findEntry] at h
  | cons entry rest ih =>
      obtain ⟨head, held⟩ := entry
      by_cases hkey : key = head
      · simp_all [findEntry]
      · simp only [findEntry, hkey, if_false] at h
        exact List.mem_cons_of_mem _ (ih h)

end Dict

end Pipework
