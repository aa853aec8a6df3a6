/-!
# Association lists in the order of their keys

A finite map is a list of pairs whose keys strictly increase.  Its order is part of the
data, since answers and messages show it.
-/

namespace ReplicaClient
namespace Assoc

variable {κ α : Type}

def Ordered [LT κ] (l : List (κ × α)) : Prop :=
  (l.map Prod.fst).Pairwise (· < ·)

def find? [DecidableEq κ] (key : κ) : List (κ × α) → Option α
  | [] => none
  | (k, a) :: rest => if k = key then some a else find? key rest

/-- Puts a pair in its place; an earlier pair with the same key gives way. -/
def insert [LT κ] [DecidableLT κ] [DecidableEq κ] (key : κ) (value : α) :
    List (κ × α) → List (κ × α)
  | [] => [(key, value)]
  | (k, a) :: rest =>
      if key < k then (key, value) :: (k, a) :: rest
      else if key = k then (key, value) :: rest
      else (k, a) :: insert key value rest

def erase [DecidableEq κ] (key : κ) (l : List (κ × α)) : List (κ × α) :=
  l.filter (·.1 ≠ key)

/-- The map of the given pairs; of equal keys the last one counts. -/
def ofList [LT κ] [DecidableLT κ] [DecidableEq κ] (l : List (κ × α)) : List (κ × α) :=
  l.foldl (fun m p ↦ insert p.1 p.2 m) []

/-- Puts a key in its place in an increasing list, unless it is there already. -/
def insertKey [LT κ] [DecidableLT κ] [DecidableEq κ] (key : κ) : List κ → List κ
  | [] => [key]
  | k :: rest =>
      if key < k then key :: k :: rest
      else if key = k then k :: rest
      else k :: insertKey key rest

theorem find?_insert_self [LT κ] [DecidableLT κ] [DecidableEq κ] (key : κ) (value : α)
    (l : List (κ × α)) : find? key (insert key value l) = some value := by
  induction l with
  | nil => simp [insert, find?]
  | cons p l ih =>
      obtain ⟨k, a⟩ := p
      unfold insert
      split
      · simp [find?]
      · split
        · simp [find?]
        · rename_i h
          simp [find?, Ne.symm h, ih]

theorem find?_insert_ne [LT κ] [DecidableLT κ] [DecidableEq κ] {key other : κ} (h : key ≠ other)
    (value : α) (l : List (κ × α)) : find? other (insert key value l) = find? other l := by
  induction l with
  | nil => simp [insert, find?, h]
  | cons p l ih =>
      obtain ⟨k, a⟩ := p
      unfold insert
      split
      · simp [find?, h]
      · split
        · rename_i hk
          simp [find?, ← hk, h]
        · simp [find?, ih]

end Assoc
end ReplicaClient
