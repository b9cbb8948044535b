import Mathlib.Order.Lattice
import Mathlib.Data.List.Lex
import Mathlib.Tactic

set_option autoImplicit false

/-! # Byte strings, results and ids

The vocabulary every layer of the server shares. A `std::string` is a list of bytes
(`Bytes`), compared as `std::string` compares: lexicographically, by unsigned byte. A
`common::Result` is an `Except` over `Error`. A uuid is the 128-bit value PostgreSQL stores;
requests carry its text, and the two meet in `isUuid`, `uuidOf` and `uuidText`. -/

namespace Launcher

/-! ## Byte strings -/

/-- The contents of a `std::string`. -/
abbrev Bytes := List UInt8

/-- The bytes of an ASCII literal of the source. -/
def ascii (text : String) : Bytes := text.toList.map (fun c => UInt8.ofNat c.toNat)

/-- `std::to_string`. -/
def decimal (n : Int) : Bytes := ascii (toString n)

instance instLinearOrderUInt8 : LinearOrder UInt8 where
  le_refl := UInt8.le_refl
  le_trans := fun _ _ _ => UInt8.le_trans
  lt_iff_le_not_ge := fun a b => by
    simp only [UInt8.lt_iff_toNat_lt, UInt8.le_iff_toNat_le]; omega
  le_antisymm := fun _ _ => UInt8.le_antisymm
  le_total := UInt8.le_total
  toDecidableLE := inferInstance

def slash : UInt8 := 0x2f
def hyphen : UInt8 := 0x2d

/-- `std::isspace` in the C locale. -/
def isWhitespace (c : UInt8) : Bool := c == 0x20 || (0x09 ≤ c && c ≤ 0x0d)

/-- `std::isalpha` in the C locale. -/
def isAlpha (c : UInt8) : Bool := (0x41 ≤ c && c ≤ 0x5a) || (0x61 ≤ c && c ≤ 0x7a)

/-- `std::isxdigit`. -/
def isHexDigit (c : UInt8) : Bool :=
  (0x30 ≤ c && c ≤ 0x39) || (0x41 ≤ c && c ≤ 0x46) || (0x61 ≤ c && c ≤ 0x66)

/-- `domain::trim`: without leading and trailing white space. -/
def trim (text : Bytes) : Bytes :=
  ((text.dropWhile isWhitespace).reverse.dropWhile isWhitespace).reverse

/-! ## Errors and results -/

inductive ErrorCode
  | InvalidInput
  | Unauthenticated
  | Forbidden
  | PasswordChangeRequired
  | NotFound
  | Conflict
  | QuotaExceeded
  | RateLimited
  | DependencyFailure
  | Internal
  deriving DecidableEq, Repr

structure Error where
  code : ErrorCode
  detail : Bytes
  /-- The stable name of the rule that refused, empty when there is none. -/
  rule : Bytes := []
  ruleArgs : List Bytes := []
  deriving DecidableEq, Repr

/-- `common::Result<T>`. -/
abbrev Result (α : Type) := Except Error α

/-- `common::VoidResult`. -/
abbrev VoidResult := Result Unit

/-- `Result::failure(code, detail)`. -/
def failure {α : Type} (code : ErrorCode) (detail : Bytes) : Result α :=
  .error { code := code, detail := detail }

/-- A sequence succeeds only if its first part does. -/
theorem bind_ok {ε α β : Type} {x : Except ε α} {f : α → Except ε β} {b : β}
    (h : (x >>= f) = .ok b) : ∃ a, x = .ok a ∧ f a = .ok b := by
  cases x with
  | error e => cases h
  | ok a => exact ⟨a, rfl, h⟩

theorem mapM_cons_ok {ε α β : Type} {f : α → Except ε β} {a : α} {as : List α} {results : List β} :
    (a :: as).mapM f = .ok results ↔
      ∃ b bs, results = b :: bs ∧ f a = .ok b ∧ as.mapM f = .ok bs := by
  rw [List.mapM_cons]
  constructor
  · intro h
    obtain ⟨b, hb, h⟩ := bind_ok h
    obtain ⟨bs, hbs, h⟩ := bind_ok h
    exact ⟨b, bs, (Except.ok.inj h).symm, hb, hbs⟩
  · rintro ⟨b, bs, rfl, hb, hbs⟩
    rw [hb, hbs]
    rfl

/-! ## Ids -/

/-- A `uuid` value. -/
abbrev Uuid := BitVec 128

/-- `domain::isUuid`: 36 bytes, hyphens at the four fixed places, hex digits elsewhere. -/
def isUuid (value : Bytes) : Bool :=
  value.length == 36 &&
    (value.zipIdx).all (fun (c, index) =>
      if index == 8 || index == 13 || index == 18 || index == 23 then c == hyphen
      else isHexDigit c)

def hexValue (c : UInt8) : Nat :=
  if c ≤ 0x39 then c.toNat - 0x30
  else if c ≤ 0x46 then c.toNat - 0x37
  else c.toNat - 0x57

/-- `$n::uuid` on a text of uuid shape. -/
def uuidOf (text : Bytes) : Uuid :=
  BitVec.ofNat 128 ((text.filter (· != hyphen)).foldl (fun n c => n * 16 + hexValue c) 0)

/-- A digit of the lower-case hexadecimal alphabet. -/
def hexDigit (n : Nat) : UInt8 := if n < 10 then UInt8.ofNat (0x30 + n) else UInt8.ofNat (0x57 + n)

/-- The last `k` hexadecimal digits of `n`, most significant first. -/
def hexDigits : Nat → Nat → Bytes
  | 0, _ => []
  | k + 1, n => hexDigits k (n / 16) ++ [hexDigit (n % 16)]

/-- A uuid as PostgreSQL renders it: lower case, in groups of 8, 4, 4, 4 and 12 digits. -/
def uuidText (id : Uuid) : Bytes :=
  let digits := hexDigits 32 id.toNat
  digits.take 8 ++ [hyphen] ++ (digits.drop 8).take 4 ++ [hyphen] ++ (digits.drop 12).take 4 ++
    [hyphen] ++ (digits.drop 16).take 4 ++ [hyphen] ++ digits.drop 20

/-! ### The text of a uuid determines it -/

theorem hexDigit_spec : ∀ n < 16, hexDigit n ≠ hyphen ∧ hexValue (hexDigit n) = n := by
  decide

/-- What holds of every digit of the alphabet holds of the digits of a number. -/
theorem forall_mem_hexDigits {P : UInt8 → Prop} (h : ∀ n < 16, P (hexDigit n)) :
    ∀ (k n : Nat), ∀ c ∈ hexDigits k n, P c
  | 0, _, c, hc => by cases hc
  | k + 1, n, c, hc => by
      rcases List.mem_append.mp hc with hc | hc
      · exact forall_mem_hexDigits h k (n / 16) c hc
      · rw [List.mem_singleton] at hc
        subst hc
        exact h (n % 16) (Nat.mod_lt _ (by decide))

theorem mem_hexDigits_ne_hyphen (k n : Nat) : ∀ c ∈ hexDigits k n, c ≠ hyphen :=
  forall_mem_hexDigits (fun n hn => (hexDigit_spec n hn).1) k n

theorem foldl_hexDigits : ∀ (k n : Nat), n < 16 ^ k →
    (hexDigits k n).foldl (fun n c => n * 16 + hexValue c) 0 = n
  | 0, n, h => by
      have : n = 0 := by simpa using h
      simp [hexDigits, this]
  | k + 1, n, h => by
      have hk : n / 16 < 16 ^ k := by
        rw [Nat.div_lt_iff_lt_mul (by decide)]
        rwa [pow_succ] at h
      have hd := (hexDigit_spec (n % 16) (Nat.mod_lt _ (by decide))).2
      rw [hexDigits, List.foldl_append, foldl_hexDigits k (n / 16) hk]
      simp only [List.foldl_cons, List.foldl_nil, hd]
      omega

theorem uuidText_filter (id : Uuid) :
    (uuidText id).filter (· != hyphen) = hexDigits 32 id.toNat := by
  have hkeep : ∀ l : Bytes, (∀ c ∈ l, c ∈ hexDigits 32 id.toNat) →
      l.filter (· != hyphen) = l := by
    intro l hl
    refine List.filter_eq_self.mpr (fun c hc => ?_)
    simpa using mem_hexDigits_ne_hyphen 32 id.toNat c (hl c hc)
  have hhy : [hyphen].filter (· != hyphen) = [] := by decide
  have hsplit : ∀ (d : Bytes) (a b : Nat), d.drop a = (d.drop a).take b ++ d.drop (a + b) := by
    intro d a b
    rw [← List.drop_drop]
    exact (List.take_append_drop b (d.drop a)).symm
  unfold uuidText
  simp only [List.filter_append, hhy, List.append_nil]
  rw [hkeep _ (fun c hc => List.mem_of_mem_take hc),
    hkeep _ (fun c hc => List.mem_of_mem_drop (List.mem_of_mem_take hc)),
    hkeep _ (fun c hc => List.mem_of_mem_drop (List.mem_of_mem_take hc)),
    hkeep _ (fun c hc => List.mem_of_mem_drop (List.mem_of_mem_take hc)),
    hkeep _ (fun c hc => List.mem_of_mem_drop hc)]
  set d := hexDigits 32 id.toNat
  calc d.take 8 ++ (d.drop 8).take 4 ++ (d.drop 12).take 4 ++ (d.drop 16).take 4 ++ d.drop 20
      = d.take 8 ++ ((d.drop 8).take 4 ++ ((d.drop 12).take 4
          ++ ((d.drop 16).take 4 ++ d.drop 20))) := by simp only [List.append_assoc]
    _ = d := by
        rw [← hsplit d 16 4, ← hsplit d 12 4, ← hsplit d 8 4, List.take_append_drop]

/-- Reading a rendered uuid back gives the uuid. -/
theorem uuidOf_uuidText (id : Uuid) : uuidOf (uuidText id) = id := by
  have h : id.toNat < 16 ^ 32 := by
    have := id.isLt
    norm_num at this ⊢
    omega
  rw [uuidOf, uuidText_filter, foldl_hexDigits 32 _ h]
  simp

theorem isHexDigit_hexDigit : ∀ n < 16, isHexDigit (hexDigit n) = true := by decide

theorem length_hexDigits : ∀ k n : Nat, (hexDigits k n).length = k
  | 0, _ => rfl
  | k + 1, n => by rw [hexDigits, List.length_append, length_hexDigits k, List.length_singleton]

/-- What the server renders it takes back. -/
theorem isUuid_uuidText (id : Uuid) : isUuid (uuidText id) = true := by
  have hdigits : ∀ c ∈ hexDigits 32 id.toNat, isHexDigit c = true :=
    forall_mem_hexDigits isHexDigit_hexDigit 32 id.toNat
  have hlength : (hexDigits 32 id.toNat).length = 32 := length_hexDigits 32 id.toNat
  -- a group of digits between two of the hyphens
  have hgroup : ∀ (digits : Bytes) (k : Nat), (∀ c ∈ digits, c ∈ hexDigits 32 id.toNat) →
      (∀ i, k ≤ i → i < k + digits.length → i ≠ 8 ∧ i ≠ 13 ∧ i ≠ 18 ∧ i ≠ 23) →
      (digits.zipIdx k).all (fun (c, index) =>
        if index == 8 || index == 13 || index == 18 || index == 23 then c == hyphen
        else isHexDigit c) = true := by
    intro digits k hmem hindex
    refine List.all_eq_true.mpr (fun ⟨c, i⟩ hc => ?_)
    obtain ⟨hlow, hhigh, hget⟩ := List.mem_zipIdx hc
    obtain ⟨h8, h13, h18, h23⟩ := hindex i hlow hhigh
    have hc : c ∈ digits := by
      rw [hget]
      exact List.getElem_mem _
    simp [h8, h13, h18, h23, hdigits c (hmem c hc)]
  unfold isUuid uuidText
  simp only [List.zipIdx_append, List.all_append, List.length_append, List.length_take,
    List.length_drop, hlength, List.length_singleton, List.zipIdx_singleton, List.all_cons,
    List.all_nil, Bool.and_true, Bool.and_eq_true]
  refine ⟨by decide, ⟨⟨⟨⟨⟨⟨⟨⟨?_, by decide⟩, ?_⟩, by decide⟩, ?_⟩, by decide⟩, ?_⟩, by decide⟩, ?_⟩⟩
  · exact hgroup _ _ (fun c hc => List.mem_of_mem_take hc)
      (fun i _ hi => by simp only [List.length_take, hlength] at hi; omega)
  iterate 3
    exact hgroup _ _ (fun c hc => List.mem_of_mem_drop (List.mem_of_mem_take hc))
      (fun i _ hi => by simp only [List.length_take, List.length_drop, hlength] at hi; omega)
  · exact hgroup _ _ (fun c hc => List.mem_of_mem_drop hc)
      (fun i _ hi => by simp only [List.length_drop, hlength] at hi; omega)

theorem uuidText_injective : Function.Injective uuidText := by
  intro id id' h
  have := congrArg uuidOf h
  rwa [uuidOf_uuidText, uuidOf_uuidText] at this

end Launcher
