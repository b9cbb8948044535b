import Mathlib.Data.List.Sort
import Launcher.Lib.PrefixCodes
import Launcher.Domain.Manifest

set_option autoImplicit false

/-! # The canonical document identifies a file list

`canonicalManifestDocument` joins its fields without lengths, so what keeps one field from
imitating the text around it is the escaping of `canonicalJsonString`, and for the sizes that
a number holds no comma. Every field is therefore written by a prefix code, and so is the document of
a sorted list. The sort is by path, and `validateManifest` refuses a path that comes twice. -/

namespace Launcher

/-! ## Numbers -/

/-- The characters `std::to_string` uses. -/
def isNumeral (c : Char) : Prop := c.isDigit = true ∨ c = '-'

theorem isNumeral_bounds {c : Char} (h : isNumeral c) : 0x2d ≤ c.toNat ∧ c.toNat < 0x3a := by
  rcases h with h | rfl
  · simp only [Char.isDigit, Bool.and_eq_true, decide_eq_true_eq] at h
    have hlo : 0x30 ≤ c.toNat := h.1
    have hhi : c.toNat ≤ 0x39 := h.2
    omega
  · decide

theorem isNumeral_of_mem_repr {n : Nat} {c : Char} (h : c ∈ n.repr.toList) : isNumeral c := by
  have hm : c ∈ Nat.toDigits 10 n := by simpa using h
  exact Or.inl (Nat.isDigit_of_mem_toDigits (by decide) (by decide) hm)

theorem toList_negSucc (m : Nat) :
    (toString (Int.negSucc m)).toList = '-' :: (m + 1).repr.toList := by
  show ("-" ++ (m + 1).repr).toList = _
  simp

theorem isNumeral_of_mem {n : Int} {c : Char} (h : c ∈ (toString n).toList) : isNumeral c := by
  cases n with
  | ofNat m => exact isNumeral_of_mem_repr h
  | negSucc m =>
      rw [toList_negSucc] at h
      rcases List.mem_cons.mp h with rfl | h
      · exact Or.inr rfl
      · exact isNumeral_of_mem_repr h

theorem repr_toList_injective {n m : Nat} (h : n.repr.toList = m.repr.toList) : n = m := by
  have hdigits : Nat.toDigits 10 n = Nat.toDigits 10 m := by simpa using h
  have hval := congrArg (fun ds => Nat.ofDigitChars 10 ds 0) hdigits
  simpa only [Nat.ofDigitChars_toDigits (b := 10) (by decide) (by decide)] using hval

theorem minus_notMem_repr (n : Nat) : '-' ∉ n.repr.toList := by
  intro h
  have hm : '-' ∈ Nat.toDigits 10 n := by simpa using h
  have hdigit := Nat.isDigit_of_mem_toDigits (by decide) (by decide) hm
  exact absurd hdigit (by decide)

/-- A number is read back from its characters: a minus sign tells the negative ones apart. -/
theorem toString_toList_injective {n m : Int}
    (h : (toString n).toList = (toString m).toList) : n = m := by
  cases n with
  | ofNat n =>
      cases m with
      | ofNat m => exact congrArg Int.ofNat (repr_toList_injective h)
      | negSucc m =>
          rw [toList_negSucc] at h
          exact absurd (h ▸ List.mem_cons_self) (minus_notMem_repr n)
  | negSucc n =>
      cases m with
      | ofNat m =>
          rw [toList_negSucc] at h
          exact absurd (h ▸ List.mem_cons_self) (minus_notMem_repr m)
      | negSucc m =>
          rw [toList_negSucc, toList_negSucc] at h
          have hsucc : n + 1 = m + 1 := repr_toList_injective (List.cons.inj h).2
          rw [Nat.succ.inj hsucc]

theorem comma_notMem_decimal (n : Int) : 0x2c ∉ decimal n := by
  intro h
  obtain ⟨c, hc, hcomma⟩ := List.mem_map.mp h
  have hb := isNumeral_bounds (isNumeral_of_mem hc)
  have hval := congrArg UInt8.toNat hcomma
  simp at hval
  omega

theorem mem_decimal {c : UInt8} {n : Int} (h : c ∈ decimal n) :
    c = 0x2d ∨ (0x30 ≤ c.toNat ∧ c.toNat ≤ 0x39) := by
  obtain ⟨d, hd, rfl⟩ := List.mem_map.mp h
  rcases isNumeral_of_mem hd with hdigit | rfl
  · right
    simp only [Char.isDigit, Bool.and_eq_true, decide_eq_true_eq] at hdigit
    have hlow : 0x30 ≤ d.toNat := hdigit.1
    have hhigh : d.toNat ≤ 0x39 := hdigit.2
    rw [UInt8.toNat_ofNat']
    omega
  · exact Or.inl rfl

/-- `ascii` loses nothing of a text of one-byte characters. -/
theorem map_ofNat_injective {u v : List Char} (hu : ∀ c ∈ u, c.toNat < 256)
    (hv : ∀ c ∈ v, c.toNat < 256)
    (h : u.map (fun c => UInt8.ofNat c.toNat) = v.map (fun c => UInt8.ofNat c.toNat)) :
    u = v := by
  have hback : ∀ l : List Char, (∀ c ∈ l, c.toNat < 256) →
      (l.map (fun c => UInt8.ofNat c.toNat)).map (fun b => Char.ofNat b.toNat) = l := by
    intro l hl
    have hid : l.map ((fun b : UInt8 => Char.ofNat b.toNat) ∘ fun c => UInt8.ofNat c.toNat)
        = l.map id := by
      refine List.map_congr_left (fun c hc => ?_)
      have hlt := hl c hc
      simp [Nat.mod_eq_of_lt hlt]
    rw [List.map_map, hid, List.map_id]
  rw [← hback u hu, ← hback v hv, h]

theorem decimal_injective : Function.Injective decimal := by
  have hsmall : ∀ n : Int, ∀ c ∈ (toString n).toList, c.toNat < 256 := by
    intro n c hc
    have hb := isNumeral_bounds (isNumeral_of_mem hc)
    omega
  intro n m h
  exact toString_toList_injective (map_ofNat_injective (hsmall n) (hsmall m) h)

/-- A number up to the comma after it. -/
theorem decimal_prefixCode : PrefixCode (fun n => decimal n ++ [0x2c]) :=
  PrefixCode.of_stop decimal_injective comma_notMem_decimal

/-! ## Strings -/

/-- Reads back what `canonicalJsonByte` wrote. -/
def readCanonicalByte : Bytes → Option (UInt8 × Bytes)
  | 0x5c :: 0x75 :: _ :: _ :: hi :: lo :: rest =>
      some (UInt8.ofNat (hexValue hi * 16 + hexValue lo), rest)
  | 0x5c :: 0x62 :: rest => some (0x08, rest)
  | 0x5c :: 0x66 :: rest => some (0x0c, rest)
  | 0x5c :: 0x6e :: rest => some (0x0a, rest)
  | 0x5c :: 0x72 :: rest => some (0x0d, rest)
  | 0x5c :: 0x74 :: rest => some (0x09, rest)
  | 0x5c :: c :: rest => some (c, rest)
  | c :: rest => some (c, rest)
  | [] => none

theorem readCanonicalByte_canonicalJsonByte (c : UInt8) (rest : Bytes) :
    readCanonicalByte (canonicalJsonByte c ++ rest) = some (c, rest) := by
  unfold canonicalJsonByte
  split_ifs with h1 h2 h3 h4 h5 h6 h7 h8
  · rw [eq_of_beq h1]; rfl
  · rw [eq_of_beq h2]; rfl
  · rw [eq_of_beq h3]; rfl
  · rw [eq_of_beq h4]; rfl
  · rw [eq_of_beq h5]; rfl
  · rw [eq_of_beq h6]; rfl
  · rw [eq_of_beq h7]; rfl
  · have hlt : c.toNat < 32 := UInt8.lt_iff_toNat_lt.mp h8
    have hhi := (hexDigit_spec (c.toNat / 16 % 16) (Nat.mod_lt _ (by decide))).2
    have hlo := (hexDigit_spec (c.toNat % 16) (Nat.mod_lt _ (by decide))).2
    have hc : c.toNat / 16 % 16 * 16 + c.toNat % 16 = c.toNat := by omega
    show some (UInt8.ofNat (hexValue (hexDigit (c.toNat / 16 % 16)) * 16
      + hexValue (hexDigit (c.toNat % 16))), rest) = some (c, rest)
    rw [hhi, hlo, hc, UInt8.ofNat_toNat]
  · have hne : c ≠ 0x5c := by simpa using h2
    show readCanonicalByte (c :: rest) = _
    unfold readCanonicalByte
    split <;> simp_all

theorem canonicalJsonByte_prefixCode : PrefixCode canonicalJsonByte :=
  PrefixCode.of_reader readCanonicalByte readCanonicalByte_canonicalJsonByte

/-- A quotation mark is always escaped, so an unescaped one closes the string. -/
theorem canonicalJsonByte_avoids_quote : AvoidsHead canonicalJsonByte 0x22 := by
  intro c r s h
  unfold canonicalJsonByte at h
  split_ifs at h with h1 <;> simp_all [ascii]

theorem canonicalJsonString_prefixCode : PrefixCode canonicalJsonString := by
  have hbody := canonicalJsonByte_prefixCode.flatMap_stop canonicalJsonByte_avoids_quote
  have heq : canonicalJsonString
      = fun value => [0x22] ++ (value.flatMap canonicalJsonByte ++ [0x22]) := by
    funext value
    simp [canonicalJsonString]
  rw [heq]
  exact hbody.literal_append [0x22]

/-! ## Entries and documents -/

def canonicalFlag (flag : Bool) : Bytes := ascii (if flag then "true" else "false")

theorem canonicalFlag_prefixCode : PrefixCode canonicalFlag := by
  intro a b r s h
  have hhead := congrArg List.head? h
  cases a with
  | false =>
      cases b with
      | false => exact ⟨rfl, List.append_cancel_left h⟩
      | true => exact absurd hhead (by simp [canonicalFlag, ascii])
  | true =>
      cases b with
      | false => exact absurd hhead (by simp [canonicalFlag, ascii])
      | true => exact ⟨rfl, List.append_cancel_left h⟩

/-- The four fields of an entry, in the order the document has them. -/
def ManifestEntry.fields (entry : ManifestEntry) : Bytes × Bytes × Int × Bool :=
  (entry.relativePath, entry.blobSha256, entry.sizeBytes, entry.isExecutable)

theorem ManifestEntry.fields_injective : Function.Injective ManifestEntry.fields := by
  intro a b h
  cases a
  cases b
  simpa [ManifestEntry.fields] using h

theorem canonicalEntry_eq (entry : ManifestEntry) :
    canonicalEntry entry =
      (ascii "\x7b\"path\":" ++ canonicalJsonString entry.fields.1) ++
      ((ascii ",\"sha256\":" ++ canonicalJsonString entry.fields.2.1) ++
      ((ascii ",\"size\":" ++ (decimal entry.fields.2.2.1 ++ [0x2c])) ++
      ((ascii "\"executable\":" ++ canonicalFlag entry.fields.2.2.2) ++ ascii "\x7d"))) := by
  have hcomma : ascii ",\"executable\":" = [0x2c] ++ ascii "\"executable\":" := rfl
  simp only [canonicalEntry, hcomma, canonicalFlag, ManifestEntry.fields, List.append_assoc]
  rfl

theorem canonicalEntry_prefixCode : PrefixCode canonicalEntry := by
  have hpath := canonicalJsonString_prefixCode.literal_append (ascii "\x7b\"path\":")
  have hsha := canonicalJsonString_prefixCode.literal_append (ascii ",\"sha256\":")
  have hsize := decimal_prefixCode.literal_append (ascii ",\"size\":")
  have hflag := (canonicalFlag_prefixCode.literal_append (ascii "\"executable\":")).append_literal
    (ascii "\x7d")
  rw [funext canonicalEntry_eq]
  exact (hpath.append (hsha.append (hsize.append hflag))).comp ManifestEntry.fields_injective

theorem canonicalEntry_avoids_bracket : AvoidsHead canonicalEntry 0x5d := by
  intro entry r s h
  have hhead := congrArg List.head? h
  exact absurd hhead (by simp [canonicalEntry, ascii])

/-- The document as a text of the entrypoint, the launch arguments and the sorted files. -/
def documentOf (content : Bytes × Bytes × List ManifestEntry) : Bytes :=
  (ascii "\x7b\"schema\":1,\"entrypoint\":" ++ canonicalJsonString content.1) ++
  ((ascii ",\"launchArgs\":" ++ canonicalJsonString content.2.1) ++
  ((ascii ",\"files\":[" ++
    (List.intercalate [0x2c] (content.2.2.map canonicalEntry) ++ [0x5d])) ++ ascii "\x7d"))

theorem documentOf_prefixCode : PrefixCode documentOf := by
  have hentry := canonicalJsonString_prefixCode.literal_append
    (ascii "\x7b\"schema\":1,\"entrypoint\":")
  have hargs := canonicalJsonString_prefixCode.literal_append (ascii ",\"launchArgs\":")
  have hne : (0x2c : UInt8) ≠ 0x5d := by decide
  have hlist := canonicalEntry_prefixCode.intercalate_stop hne canonicalEntry_avoids_bracket
  have hfiles := (hlist.literal_append (ascii ",\"files\":[")).append_literal (ascii "\x7d")
  exact hentry.append (hargs.append hfiles)

theorem canonicalManifestDocument_eq (entries : List ManifestEntry) (entrypoint args : Bytes) :
    canonicalManifestDocument entries entrypoint args
      = documentOf (entrypoint, args, sortByPath entries) := by
  have hclose : ascii "]\x7d" = [0x5d] ++ ascii "\x7d" := rfl
  simp only [canonicalManifestDocument, documentOf, hclose, List.append_assoc]

/-- `std::sort` is not stable, and need not be: whatever permutation in the order of the paths
it makes of an accepted list, it makes this one. -/
theorem sortByPath_unique {entries sorted : List ManifestEntry} (hperm : sorted.Perm entries)
    (hsorted : sorted.Pairwise (fun lhs rhs => ¬ rhs.relativePath < lhs.relativePath))
    (hnd : (entries.map (·.relativePath)).Nodup) : sorted = sortByPath entries := by
  have hle : sorted.Pairwise (fun lhs rhs => lhs.relativePath ≤ rhs.relativePath) :=
    hsorted.imp (fun h => not_lt.mp h)
  have hself : sortByPath sorted = sorted := List.Pairwise.insertionSort_eq hle
  have hnd' : (sorted.map (·.relativePath)).Nodup := (hperm.map _).nodup_iff.mpr hnd
  rw [← hself]
  exact sortByPath_congr hperm hnd'

/-- **The document identifies the content**: two accepted submissions have the same document
exactly when they agree on the entrypoint, on the launch arguments and, up to order, on the
files. -/
theorem canonicalManifestDocument_eq_iff {entries entries' : List ManifestEntry}
    {entrypoint entrypoint' : Bytes} (args args' : Bytes)
    (h : validateManifest entries entrypoint = .ok ())
    (h' : validateManifest entries' entrypoint' = .ok ()) :
    canonicalManifestDocument entries entrypoint args
        = canonicalManifestDocument entries' entrypoint' args' ↔
      entrypoint = entrypoint' ∧ args = args' ∧ entries.Perm entries' := by
  constructor
  · intro heq
    rw [canonicalManifestDocument_eq, canonicalManifestDocument_eq] at heq
    have hcontent := documentOf_prefixCode.injective heq
    simp only [Prod.mk.injEq] at hcontent
    obtain ⟨hentry, hargs, hsort⟩ := hcontent
    refine ⟨hentry, hargs, ?_⟩
    exact (sortByPath_perm entries).symm.trans (hsort ▸ sortByPath_perm entries')
  · rintro ⟨rfl, rfl, hperm⟩
    exact canonicalManifestDocument_congr hperm (validateManifest_ok h).distinct entrypoint args

def gameBinary : ManifestEntry :=
  { relativePath := ascii "bin/game", blobSha256 := List.replicate 64 0x61, sizeBytes := 10
    isExecutable := true }

def gameData : ManifestEntry :=
  { relativePath := ascii "data", blobSha256 := List.replicate 64 0x62, sizeBytes := 20
    isExecutable := false }

theorem canonicalManifestDocument_two_files :
    canonicalManifestDocument [gameBinary, gameData] (ascii "bin/game") [] =
      canonicalManifestDocument [gameData, gameBinary] (ascii "bin/game") [] ∧
    canonicalManifestDocument [gameBinary, gameData] (ascii "bin/game") [] ≠
      canonicalManifestDocument [gameBinary, gameData] (ascii "data") [0x22] := by
  have h : validateManifest [gameBinary, gameData] (ascii "bin/game") = .ok () := by decide
  have hswap : validateManifest [gameData, gameBinary] (ascii "bin/game") = .ok () := by decide
  have hother : validateManifest [gameBinary, gameData] (ascii "data") = .ok () := by decide
  constructor
  · exact (canonicalManifestDocument_eq_iff [] [] h hswap).mpr ⟨rfl, rfl, List.Perm.swap _ _ _⟩
  · intro heq
    have hentry := ((canonicalManifestDocument_eq_iff [] [0x22] h hother).mp heq).1
    exact absurd hentry (by decide)

end Launcher
