/-!
# Draws

Everything random in the fuzzer comes from a sequence of numbers, drawn one after the other. A draw below `n`
is the next number modulo `n`, so what is generated is a function of the sequence. Choices are made from
lists that are not empty, hence they are always defined.
-/

namespace TrafficKey.Fuzz

/-- A sequence of numbers, and how many of them have been drawn. -/
structure Draws where
  numbers : Nat → Nat
  used : Nat := 0

/-- The numbers of a list, again and again. -/
def Draws.cycle (numbers : List Nat) : Draws :=
  let pool := numbers.toArray
  { numbers := fun i => pool.getD (i % pool.size) 0 }

/-- Something generated from draws. -/
abbrev Gen := StateM Draws

namespace Gen

/-- A number below `n`. -/
def below (n : Nat) (h : 0 < n) : Gen (Fin n) := fun d =>
  (⟨d.numbers d.used % n, Nat.mod_lt _ h⟩, { d with used := d.used + 1 })

/-- A number from `low` to `high`. -/
def between (low high : Nat) : Gen Nat := do
  let i ← below (high - low + 1) (Nat.succ_pos _)
  return low + i

/-- A number below a thousand. -/
def thousandth : Gen (Fin 1000) :=
  below 1000 (by decide)

/-- True in the given number of cases out of a thousand. -/
def chance (perMille : Nat) : Gen Bool := do
  let i ← thousandth
  return i.val < perMille

/-- A member of a list. -/
def choose {α : Type} (xs : List α) (h : xs ≠ []) : Gen α := do
  let i ← below xs.length (List.length_pos_iff.mpr h)
  return xs.get i

/-- The results of `n` generations, in order. -/
def collect {α : Type} (n : Nat) (g : Gen α) : Gen (List α) :=
  match n with
  | 0 => return []
  | n + 1 => do
    let first ← g
    let rest ← collect n g
    return first :: rest

end Gen

end TrafficKey.Fuzz
