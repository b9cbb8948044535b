import Launcher.Common.Basic
import Launcher.Lib.Words

set_option autoImplicit false

/-! # The address a request is attributed to

`common/ClientAddress.cpp`. A request that arrives through a trusted reverse proxy carries
the client in `X-Forwarded-For`, a comma-separated list that every proxy appends to on the
right; everything left of the last entry a trusted proxy wrote is the client's own text. The
file models the scan from the right with the index arithmetic of the source, shows that it
computes "the rightmost hop that is neither empty nor a trusted proxy", and concludes that
whatever a client puts in front of the header changes nothing. -/

namespace Launcher

namespace ClientAddress

def comma : UInt8 := 0x2c
def dot : UInt8 := 0x2e
def minus : UInt8 := 0x2d

def IPV4_OCTETS : Nat := 4
def IPV4_BITS : Int := 32

/-! ## Addresses -/

def isBlank (c : UInt8) : Bool := c == 0x20 || c == 0x09

/-- The local `trim`: spaces and tabs only, unlike `domain::trim`. -/
def trim (text : Bytes) : Bytes :=
  ((text.dropWhile isBlank).reverse.dropWhile isBlank).reverse

/-- The value of a non-empty string of decimal digits, `none` for any other. -/
def readDigits (digits : Bytes) : Option Nat :=
  if digits.isEmpty then none
  else digits.foldl (fun value c =>
    value.bind (fun n => if 0x30 ≤ c ∧ c ≤ 0x39 then some (n * 10 + (c.toNat - 0x30)) else none))
    (some 0)

/-- `std::from_chars` into an `int`, with the whole text consumed: an optional minus, then
digits, within the range of the type. -/
def parseNumber (text : Bytes) : Option Int :=
  let value : Option Int := match text with
    | c :: digits =>
        if c = minus then (readDigits digits).map (fun n => -(n : Int))
        else (readDigits text).map (fun n => (n : Int))
    | [] => none
  value.filter (fun n => -2147483648 ≤ n ∧ n ≤ 2147483647)

/-- The loop of `parseIpv4`, with the octets still to be read. -/
def parseOctets : Nat → UInt32 → Bytes → Option UInt32
  | 0, packed, _ => some packed
  | octets + 1, packed, address =>
      let last := octets = 0
      let found := address.findIdx? (· == dot)
      -- exactly one separator between octets and none after the last
      if last ↔ found = none then
        match parseNumber (address.take (found.getD address.length)) with
        | none => none
        | some value =>
            if value < 0 ∨ 255 < value then none
            else
              let packed := (packed <<< 8) ||| UInt32.ofNat value.toNat
              parseOctets octets packed (address.drop (found.getD address.length + 1))
      else none

def parseIpv4 (address : Bytes) : Option UInt32 := parseOctets IPV4_OCTETS 0 address

/-- An entry of the list is an address, compared as text, or an IPv4 block. -/
def matchesEntry (address entry : Bytes) : Bool :=
  match entry.findIdx? (· == slash) with
  | none => address == entry
  | some i =>
      match parseIpv4 (entry.take i), parseIpv4 address, parseNumber (entry.drop (i + 1)) with
      | some network, some candidate, some bits =>
          if bits < 0 ∨ IPV4_BITS < bits then false
          else if bits = 0 then true
          else
            let mask : UInt32 := if bits = IPV4_BITS then ~~~0
              else ~~~((1 <<< UInt32.ofNat (IPV4_BITS - bits).toNat) - 1)
            network &&& mask == candidate &&& mask
      | _, _, _ => false

def isTrustedProxy (address : Bytes) (trustedProxies : List Bytes) : Bool :=
  trustedProxies.any (fun entry => matchesEntry address (trim entry))

/-! ## The scan -/

/-- `text.rfind(c, pos)`. -/
def rfind (text : Bytes) (c : UInt8) : Nat → Option Nat
  | 0 => if text[0]? = some c then some 0 else none
  | pos + 1 => if text[pos + 1]? = some c then some (pos + 1) else rfind text c pos

/-- The hop that ends where `stop` says, and the comma in front of it. -/
def hopBefore (forwardedFor : Bytes) (stop : Nat) : Bytes × Option Nat :=
  let found := rfind forwardedFor comma (stop - 1)
  let start := match found with
    | none => 0
    | some i => i + 1
  (trim ((forwardedFor.drop start).take (stop - start)), found)

theorem rfind_le {text : Bytes} {c : UInt8} {pos i : Nat} (h : rfind text c pos = some i) :
    i ≤ pos := by
  induction pos with
  | zero =>
      simp only [rfind] at h
      split at h
      · simp only [Option.some.injEq] at h
        omega
      · cases h
  | succ pos ih =>
      simp only [rfind] at h
      split at h
      · simp only [Option.some.injEq] at h
        omega
      · have := ih h
        omega

/-- The `while` loop from `stop` on: the hop it returns, `none` when it runs to its end. -/
def scanHops (forwardedFor : Bytes) (trustedProxies : List Bytes) (stop : Nat) : Option Bytes :=
  if _hpos : 0 < stop then
    let hop := (hopBefore forwardedFor stop).1
    if !hop.isEmpty && !isTrustedProxy hop trustedProxies then some hop
    else match _hfound : (hopBefore forwardedFor stop).2 with
      | none => none
      | some i => scanHops forwardedFor trustedProxies i
  else none
termination_by stop
decreasing_by
  have := rfind_le _hfound
  omega

def resolveClientAddress (peer forwardedFor : Bytes) (trustedProxies : List Bytes) : Bytes :=
  if trustedProxies.isEmpty || forwardedFor.isEmpty || !isTrustedProxy peer trustedProxies then
    peer
  else
    -- a header of trusted hops only names no client, and the peer is the honest answer
    (scanHops forwardedFor trustedProxies forwardedFor.length).getD peer

/-! ## What the scan computes -/

/-- The hops of a header, from left to right. -/
def hops (forwardedFor : Bytes) : List Bytes := (forwardedFor.splitOn comma).map trim

/-- A hop that can be the client: not empty, and not one of the proxies. -/
def IsClient (trustedProxies : List Bytes) (hop : Bytes) : Prop :=
  hop ≠ [] ∧ isTrustedProxy hop trustedProxies = false

instance (trustedProxies : List Bytes) (hop : Bytes) : Decidable (IsClient trustedProxies hop) :=
  inferInstanceAs (Decidable (_ ∧ _))

/-- `hop` is the rightmost hop of the header that can be the client. -/
def Rightmost (forwardedFor : Bytes) (trustedProxies : List Bytes) (hop : Bytes) : Prop :=
  ∃ left right, hops forwardedFor = left ++ hop :: right ∧ IsClient trustedProxies hop ∧
    ∀ other ∈ right, ¬ IsClient trustedProxies other

theorem rfind_some {text : Bytes} {c : UInt8} {pos i : Nat} (h : rfind text c pos = some i) :
    text[i]? = some c ∧ ∀ j, i < j → j ≤ pos → text[j]? ≠ some c := by
  induction pos with
  | zero =>
      simp only [rfind] at h
      split at h
      case isTrue hc =>
        simp only [Option.some.injEq] at h
        subst h
        exact ⟨hc, fun j hj hj' => by omega⟩
      case isFalse => cases h
  | succ pos ih =>
      simp only [rfind] at h
      split at h
      case isTrue hc =>
        simp only [Option.some.injEq] at h
        subst h
        exact ⟨hc, fun j hj hj' => by omega⟩
      case isFalse hc =>
        obtain ⟨hi, hafter⟩ := ih h
        refine ⟨hi, fun j hij hj => ?_⟩
        by_cases hlast : j = pos + 1
        · rw [hlast]
          exact hc
        · exact hafter j hij (by omega)

theorem rfind_none {text : Bytes} {c : UInt8} {pos : Nat} (h : rfind text c pos = none) :
    ∀ j ≤ pos, text[j]? ≠ some c := by
  induction pos with
  | zero =>
      intro j hj hc
      have hzero : j = 0 := by omega
      subst hzero
      simp [rfind, hc] at h
  | succ pos ih =>
      simp only [rfind] at h
      split at h
      case isTrue => cases h
      case isFalse hc =>
        intro j hj
        by_cases hlast : j = pos + 1
        · rw [hlast]
          exact hc
        · exact ih h j (by omega)

/-- A part of the text that holds no `c` at any of its places. -/
theorem notMem_slice {text : Bytes} {c : UInt8} {start stop : Nat}
    (h : ∀ j, start ≤ j → j < stop → text[j]? ≠ some c) :
    c ∉ (text.drop start).take (stop - start) := by
  intro hc
  obtain ⟨k, hk⟩ := List.mem_iff_getElem?.mp hc
  rw [List.getElem?_take] at hk
  split at hk
  case isTrue hlt =>
    rw [List.getElem?_drop] at hk
    exact h (start + k) (by omega) (by omega) hk
  case isFalse => cases hk

/-- One round of the loop takes the last hop off the part of the header that is left. -/
theorem hops_take {forwardedFor : Bytes} {stop : Nat} (hpos : 0 < stop) :
    hops (forwardedFor.take stop) = (match (hopBefore forwardedFor stop).2 with
      | none => []
      | some i => hops (forwardedFor.take i)) ++ [(hopBefore forwardedFor stop).1] := by
  cases hfound : rfind forwardedFor comma (stop - 1) with
  | none =>
      -- no comma is left, so this is the leftmost hop
      have hnone : comma ∉ forwardedFor.take stop := by
        have hslice : comma ∉ (forwardedFor.drop 0).take (stop - 0) :=
          notMem_slice (fun j _ hj => rfind_none hfound j (by omega))
        simpa using hslice
      simp [hops, hopBefore, hfound, List.splitOn_eq_singleton hnone]
  | some i =>
      have hi : i ≤ stop - 1 := rfind_le hfound
      obtain ⟨hcomma, hafter⟩ := rfind_some hfound
      have hnone : comma ∉ (forwardedFor.drop (i + 1)).take (stop - (i + 1)) :=
        notMem_slice (fun j hj hj' => hafter j (by omega) (by omega))
      obtain ⟨hlt, hget⟩ := List.getElem?_eq_some_iff.mp hcomma
      -- the part splits at its last comma
      have hsplit : forwardedFor.take stop =
          forwardedFor.take i ++ comma :: (forwardedFor.drop (i + 1)).take (stop - (i + 1)) := by
        calc forwardedFor.take stop
            = forwardedFor.take i ++ (forwardedFor.drop i).take (stop - i) := by
              rw [← List.take_add]
              congr 1
              omega
          _ = forwardedFor.take i ++
                comma :: (forwardedFor.drop (i + 1)).take (stop - (i + 1)) := by
              rw [List.drop_eq_getElem_cons hlt, hget,
                show stop - i = stop - (i + 1) + 1 by omega, List.take_succ_cons]
      simp only [hops, hopBefore, hfound]
      rw [hsplit, List.splitOn_append_cons_self, List.splitOn_eq_singleton hnone]
      simp

theorem scanHops_eq (forwardedFor : Bytes) (trustedProxies : List Bytes) (stop : Nat) :
    scanHops forwardedFor trustedProxies stop =
      (hops (forwardedFor.take stop)).reverse.find? (fun hop => IsClient trustedProxies hop) := by
  induction stop using Nat.strongRecOn with
  | ind stop ih =>
      rw [scanHops]
      by_cases hpos : 0 < stop
      case neg =>
        have hzero : stop = 0 := by omega
        subst hzero
        simp [hops, IsClient, trim]
      case pos =>
        rw [dif_pos hpos, hops_take hpos]
        simp only [List.reverse_append, List.reverse_singleton, List.singleton_append,
          List.find?_cons]
        -- a round of the loop tests the hop that `find?` tests first
        by_cases hclient : IsClient trustedProxies (hopBefore forwardedFor stop).1
        · have htest : (!(hopBefore forwardedFor stop).1.isEmpty &&
              !isTrustedProxy (hopBefore forwardedFor stop).1 trustedProxies) = true := by
            simpa [IsClient, List.isEmpty_iff] using hclient
          rw [if_pos htest]
          simp [hclient]
        · have htest : ¬ (!(hopBefore forwardedFor stop).1.isEmpty &&
              !isTrustedProxy (hopBefore forwardedFor stop).1 trustedProxies) = true := by
            simpa [IsClient, List.isEmpty_iff] using hclient
          rw [if_neg htest]
          simp only [hclient, decide_false]
          cases hfound : (hopBefore forwardedFor stop).2 with
          | none => simp
          | some i =>
              have hi : i ≤ stop - 1 := rfind_le hfound
              exact ih i (by omega)

theorem rightmost_iff {forwardedFor : Bytes} {trustedProxies : List Bytes} {hop : Bytes} :
    Rightmost forwardedFor trustedProxies hop ↔
      (hops forwardedFor).reverse.find? (fun hop => IsClient trustedProxies hop) = some hop := by
  rw [List.find?_eq_some_iff_append]
  simp only [decide_eq_true_eq, Bool.not_eq_true', decide_eq_false_iff_not]
  constructor
  · rintro ⟨left, right, hsplit, hclient, hright⟩
    refine ⟨hclient, right.reverse, left.reverse, ?_, ?_⟩
    · simp [hsplit]
    · intro other hother
      exact hright other (List.mem_reverse.mp hother)
  · rintro ⟨hclient, right, left, hsplit, hright⟩
    refine ⟨left.reverse, right.reverse, ?_, hclient, ?_⟩
    · rw [← List.reverse_reverse (hops forwardedFor), hsplit]
      simp
    · intro other hother
      exact hright other (List.mem_reverse.mp hother)

/-- Behind a trusted peer the answer is the hop the scan finds, or the peer. -/
theorem resolveClientAddress_trusted {peer : Bytes} {trustedProxies : List Bytes}
    (hpeer : isTrustedProxy peer trustedProxies = true) (forwardedFor : Bytes) :
    resolveClientAddress peer forwardedFor trustedProxies =
      ((hops forwardedFor).reverse.find? (fun hop => IsClient trustedProxies hop)).getD peer := by
  have hlist : trustedProxies.isEmpty = false := by
    cases trustedProxies with
    | nil => simp [isTrustedProxy] at hpeer
    | cons => rfl
  cases forwardedFor with
  | nil => simp [resolveClientAddress, hops, IsClient, trim]
  | cons c rest =>
      simp only [resolveClientAddress, hlist, hpeer, List.isEmpty_cons, Bool.not_true, Bool.or_self]
      rw [if_neg (by decide), scanHops_eq, List.take_length]

theorem trim_trim (text : Bytes) : trim (trim text) = trim text :=
  Lib.trimmed_trimmed isBlank text

/-- No piece between separators holds a separator. -/
theorem notMem_of_mem_splitOn {c : UInt8} {text : Bytes} :
    ∀ piece ∈ text.splitOn c, c ∉ piece := by
  induction text with
  | nil =>
      intro piece h
      simp only [List.splitOn_nil, List.mem_singleton] at h
      simp [h]
  | cons b rest ih =>
      intro piece h
      rw [List.splitOn_cons_eq_if_modifyHead] at h
      split at h
      case isTrue =>
        rcases List.mem_cons.mp h with rfl | h
        · exact List.not_mem_nil
        · exact ih piece h
      case isFalse hb =>
        obtain ⟨first, more, hpieces⟩ := List.exists_cons_of_ne_nil (List.splitOn_ne_nil c rest)
        rw [hpieces] at h ih
        rcases List.mem_cons.mp h with rfl | h
        · have hfirst := ih first List.mem_cons_self
          have hne : c ≠ b := by
            rintro rfl
            exact hb (beq_self_eq_true _)
          simp [hne, hfirst]
        · exact ih piece (List.mem_cons_of_mem _ h)

theorem notMem_of_mem_hops {forwardedFor hop : Bytes} (h : hop ∈ hops forwardedFor) :
    comma ∉ hop := by
  obtain ⟨segment, hsegment, rfl⟩ := List.mem_map.mp h
  intro hcomma
  have hin : comma ∈ segment := by
    have hdrop : comma ∈ segment.dropWhile isBlank := by
      have := List.dropWhile_sublist isBlank (l := (segment.dropWhile isBlank).reverse)
      exact List.mem_reverse.mp (this.mem (List.mem_reverse.mp hcomma))
    exact (List.dropWhile_sublist isBlank).mem hdrop
  exact notMem_of_mem_splitOn segment hsegment hin

/-- **A client cannot choose its own address.** Behind a trusted peer, whatever text is put
in front of a header that names a client leaves the answer at the rightmost hop that is
neither empty nor a proxy. In every case the answer is the peer or an untrusted hop of the
header, without commas or blanks around it; the header of a peer that is not trusted is
ignored; and every round of the scan that goes on does so from a smaller index. -/
theorem client_address (peer : Bytes) (trustedProxies : List Bytes) :
    (isTrustedProxy peer trustedProxies = true → ∀ forwardedFor lead,
      (∃ hop ∈ hops forwardedFor, IsClient trustedProxies hop) →
        resolveClientAddress peer (lead ++ comma :: forwardedFor) trustedProxies =
            resolveClientAddress peer forwardedFor trustedProxies ∧
          Rightmost forwardedFor trustedProxies
            (resolveClientAddress peer forwardedFor trustedProxies)) ∧
    (∀ forwardedFor, ∃ address, resolveClientAddress peer forwardedFor trustedProxies = address ∧
      (address = peer ∨ (address ∈ hops forwardedFor ∧ trim address = address ∧
        comma ∉ address ∧ isTrustedProxy address trustedProxies = false))) ∧
    (isTrustedProxy peer trustedProxies = false → ∀ forwardedFor forwardedFor',
      resolveClientAddress peer forwardedFor trustedProxies =
        resolveClientAddress peer forwardedFor' trustedProxies) ∧
    (∀ forwardedFor stop i, 0 < stop → (hopBefore forwardedFor stop).2 = some i → i < stop) := by
  refine ⟨?prepended, ?answer, ?untrusted, ?decreasing⟩
  case prepended =>
    intro hpeer forwardedFor lead hnamed
    have hfound : ((hops forwardedFor).reverse.find?
        (fun hop => IsClient trustedProxies hop)).isSome = true := by
      obtain ⟨hop, hin, hclient⟩ := hnamed
      rw [List.find?_isSome]
      exact ⟨hop, List.mem_reverse.mpr hin, by simpa using hclient⟩
    obtain ⟨hop, hhop⟩ := Option.isSome_iff_exists.mp hfound
    -- what is prepended adds hops in front, and the search is from behind
    have hhops : hops (lead ++ comma :: forwardedFor) = hops lead ++ hops forwardedFor := by
      rw [hops, List.splitOn_append_cons_self, List.map_append]
      rfl
    have hanswer : resolveClientAddress peer forwardedFor trustedProxies = hop := by
      rw [resolveClientAddress_trusted hpeer, hhop, Option.getD_some]
    constructor
    · rw [hanswer, resolveClientAddress_trusted hpeer, hhops, List.reverse_append,
        List.find?_append, hhop, Option.some_or, Option.getD_some]
    · rw [hanswer, rightmost_iff]
      exact hhop
  case answer =>
    intro forwardedFor
    refine ⟨_, rfl, ?_⟩
    by_cases hpeer : isTrustedProxy peer trustedProxies = true
    case neg => exact Or.inl (by simp [resolveClientAddress, hpeer])
    case pos =>
      rw [resolveClientAddress_trusted hpeer]
      cases hhop : (hops forwardedFor).reverse.find? (fun hop => IsClient trustedProxies hop) with
      | none => exact Or.inl rfl
      | some hop =>
          have hin : hop ∈ hops forwardedFor := List.mem_reverse.mp (List.mem_of_find?_eq_some hhop)
          have hclient : IsClient trustedProxies hop := by
            simpa using List.find?_some hhop
          have htrim : trim hop = hop := by
            obtain ⟨segment, -, rfl⟩ := List.mem_map.mp hin
            exact trim_trim segment
          exact Or.inr ⟨hin, htrim, notMem_of_mem_hops hin, hclient.2⟩
  case untrusted =>
    intro hpeer forwardedFor forwardedFor'
    simp [resolveClientAddress, hpeer]
  case decreasing =>
    intro forwardedFor stop i hpos hfound
    have hle : i ≤ stop - 1 := rfind_le hfound
    omega

/-- A claimed address in front of what the proxy wrote. -/
theorem client_address_claimed :
    resolveClientAddress (ascii "10.0.0.5") (ascii "1.2.3.4, 198.51.100.1 ,10.0.0.6")
      [ascii "10.0.0.0/8"] = ascii "198.51.100.1" := by
  have hpeer : isTrustedProxy (ascii "10.0.0.5") [ascii "10.0.0.0/8"] = true := by decide +kernel
  have hnamed : ∃ hop ∈ hops (ascii " 198.51.100.1 ,10.0.0.6"),
      IsClient [ascii "10.0.0.0/8"] hop := by decide +kernel
  have h := (client_address (ascii "10.0.0.5") [ascii "10.0.0.0/8"]).1 hpeer
    (ascii " 198.51.100.1 ,10.0.0.6") (ascii "1.2.3.4") hnamed
  have hrest : resolveClientAddress (ascii "10.0.0.5") (ascii " 198.51.100.1 ,10.0.0.6")
      [ascii "10.0.0.0/8"] = ascii "198.51.100.1" := by
    rw [resolveClientAddress_trusted hpeer]
    decide +kernel
  exact h.1.trans hrest

end ClientAddress

end Launcher
