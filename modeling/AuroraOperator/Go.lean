/-
# The corner of Go's standard library the operator leans on

The operator's decisions go through a handful of library calls: `strings.TrimSpace`,
`strings.EqualFold`, `sort.Strings`, `strconv.Quote`, maps with string keys, `metav1.Time`
and the SHA-256 digest behind `hashObject`.  This file gives each of them a computable
definition, so that the model above it can be evaluated on concrete inputs.

Two of them carry a modelling decision.

* **Time.**  A `metav1.Time` is a count of nanoseconds.  Its JSON form has whole seconds
  only, so what the API server stores, and what every later read returns, is
  `wholeSeconds t`.  In memory a job still holds the full value it read from the clock.
* **Digests.**  `hashObject` is SHA-256 over the JSON of its argument, and is only ever
  compared for equality.  `Digest` keeps the hashed value itself: equal values have equal
  digests, and different values have different ones, which is what SHA-256 is used for.
-/
import Mathlib

namespace AuroraOperator

/-! ## 1. Maps and sorted lists of strings -/

/-- Go's `map[string]T`.  Extensional, and listed in key order: the source sorts the keys
wherever the order of a map could show. -/
abbrev StringMap (α : Type) := Std.ExtTreeMap String α

instance : DecidableEq (StringMap (StringMap String)) := inferInstance

/-- `sort.Strings`. -/
def sortStrings (values : List String) : List String := values.insertionSort (· ≤ ·)

theorem sortStrings_perm (values : List String) : (sortStrings values).Perm values :=
  List.perm_insertionSort _ _

@[simp] theorem mem_sortStrings {x : String} {values : List String} :
    x ∈ sortStrings values ↔ x ∈ values := (sortStrings_perm values).mem_iff

@[simp] theorem sortStrings_nil : sortStrings [] = [] := rfl

theorem sortStrings_nodup {values : List String} :
    (sortStrings values).Nodup ↔ values.Nodup := (sortStrings_perm values).nodup_iff

theorem sortStrings_pairwise (values : List String) :
    (sortStrings values).Pairwise (· ≤ ·) := List.pairwise_insertionSort _ _

/-! ## 2. Text -/

/-- `unicode.IsSpace`. -/
def isSpace (c : Char) : Bool :=
  (0x09 ≤ c.toNat && c.toNat ≤ 0x0d) || (0x2000 ≤ c.toNat && c.toNat ≤ 0x200a) ||
    [0x20, 0x85, 0xa0, 0x1680, 0x2028, 0x2029, 0x202f, 0x205f, 0x3000].contains c.toNat

/-- `strings.TrimSpace`. -/
def trimSpace (s : String) : String :=
  String.ofList ((s.toList.dropWhile isSpace).reverse.dropWhile isSpace).reverse

theorem trimSpace_eq_rdropWhile (s : String) :
    trimSpace s = String.ofList ((s.toList.dropWhile isSpace).rdropWhile isSpace) := rfl

theorem trimSpace_subset (s : String) : (trimSpace s).toList ⊆ s.toList := by
  rw [trimSpace_eq_rdropWhile, String.toList_ofList]
  refine List.Subset.trans ?_ (List.dropWhile_sublist isSpace).subset
  exact List.IsPrefix.subset <| List.rdropWhile_prefix ..

/-- What trimming leaves has no blank at either end, so trimming again takes nothing away. -/
@[simp] theorem trimSpace_idem (s : String) : trimSpace (trimSpace s) = trimSpace s := by
  rw [trimSpace_eq_rdropWhile, trimSpace_eq_rdropWhile, String.toList_ofList]
  generalize hl : s.toList.dropWhile isSpace = l
  have hhead : (l.rdropWhile isSpace).dropWhile isSpace = l.rdropWhile isSpace := by
    rw [List.dropWhile_eq_self_iff]
    intro hpos
    have hidem : l.dropWhile isSpace = l := by rw [← hl, List.dropWhile_idempotent]
    have hshort := l.rdropWhile_prefix isSpace
    have := List.dropWhile_eq_self_iff.mp hidem (hpos.trans_le hshort.length_le)
    simpa [hshort.getElem hpos] using this
  rw [hhead, List.rdropWhile_idempotent]

/-- The simple case folding of the characters that fold to an ASCII one: the capital
letters, the long s and the Kelvin sign. -/
def foldChar (c : Char) : Char :=
  if c.toNat = 0x17f then 's' else if c.toNat = 0x212a then 'k' else c.toLower

/-- `strings.EqualFold` against an ASCII text. -/
def equalFold (s ascii : String) : Bool := s.toList.map foldChar == ascii.toList.map foldChar

/-- `strings.Contains`. -/
def containsText (s needle : String) : Bool := decide (needle.toList <:+: s.toList)

/-- Two lower-case hexadecimal digits, as `strconv.Quote` writes them. -/
def hexByte (n : Nat) : List Char := [Nat.digitChar (n / 16 % 16), Nat.digitChar (n % 16)]

/-- One character of `strconv.Quote`.  Printable characters stand for themselves. -/
def quoteChar (c : Char) : List Char :=
  match c.toNat with
  | 0x07 => "\\a".toList
  | 0x08 => "\\b".toList
  | 0x09 => "\\t".toList
  | 0x0a => "\\n".toList
  | 0x0b => "\\v".toList
  | 0x0c => "\\f".toList
  | 0x0d => "\\r".toList
  | 0x22 => "\\\"".toList
  | 0x5c => "\\\\".toList
  | n => if n < 0x20 ∨ n = 0x7f then "\\x".toList ++ hexByte n else [c]

/-- The `%q` verb. -/
def quote (s : String) : String :=
  "\"" ++ String.ofList (s.toList.flatMap quoteChar) ++ "\""

/-- `strings.Join`. -/
def joinStrings (values : List String) (sep : String) : String := sep.intercalate values

/-! ## 3. Time -/

/-- One second of `time.Duration`.  Times and durations are `Int`s of nanoseconds. -/
def second : Int := 1000000000

/-- What is left of a time after a round trip through its RFC 3339 form. -/
def wholeSeconds (t : Int) : Int := t - t % second

@[simp] theorem wholeSeconds_idem (t : Int) : wholeSeconds (wholeSeconds t) = wholeSeconds t := by
  simp only [wholeSeconds, second]
  omega

theorem wholeSeconds_mono {t u : Int} (h : t ≤ u) : wholeSeconds t ≤ wholeSeconds u := by
  simp only [wholeSeconds, second]
  omega

/-! ## 4. Counters -/

/-- Counting up is exact below the maximum. -/
theorem int32_toInt_succ {n : Int32} (h : n.toInt < 2 ^ 31 - 1) : (n + 1).toInt = n.toInt + 1 := by
  have hmin := n.le_toInt
  have hone : (1 : Int32).toInt = 1 := rfl
  rw [Int32.toInt_add, hone]
  exact Int.bmod_eq_of_le (by omega) (by omega)

/-! ## 5. Digests -/

/-- The hexadecimal SHA-256 of a value's JSON. -/
structure Digest (α : Type) where
  payload : α
  deriving DecidableEq, Repr

/-- `hashObject`, on a value that is already in its JSON form. -/
def hashObject {α : Type} (value : α) : Digest α := ⟨value⟩

@[simp] theorem hashObject_inj {α : Type} {a b : α} : hashObject a = hashObject b ↔ a = b := by
  simp [hashObject]

end AuroraOperator
