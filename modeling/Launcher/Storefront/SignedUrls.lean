import Launcher.Domain.ManifestIdentity
import Launcher.Lib.Paths
import Launcher.Lib.Uris
import Launcher.Lib.Words
import Launcher.Server.System
import Launcher.Storage.Base64Url
import Launcher.Storefront.Downloads

set_option autoImplicit false

/-! # Signed URLs

`DownloadUrlSigner` hashes the expiry, the path the file server will see and the secret, one
after the other; the server hashes what it makes of the URL. The path that is hashed is cut out
of the public base URL in one way and the base of the URL in another, and both lose their
trailing slashes. `signed_urls_verify` proves that for every base URL the two hash the same text,
and that the text gives the expiry and the path away.

MD5 is any function to 16 bytes. What the server makes of a path (`normalise`) is a parameter as
well; all that is used of it is that it leaves a path alone which has no escape, no empty and no
dot segment. -/

namespace Launcher.Storefront

open Launcher.Lib
open Uris (colon question hash ampersand equals)

/-! ## The signer -/

/-- The result of MD5. -/
abbrev Digest := {bytes : Bytes // bytes.length = 16}

namespace DownloadUrlSigner

def md5Base64Url (md5 : Bytes → Digest) (payload : Bytes) : Bytes :=
  Base64.encode BASE64URL (md5 payload).1

theorem md5Base64Url_eq (md5 : Bytes → Digest) (payload : Bytes) :
    base64Url (md5 payload).1 (md5 payload).1.length = some (md5Base64Url md5 payload) :=
  base64Url_eq_encode (md5 payload).1

/-- What `sign` takes for the path of the URL. -/
def uri (publicBaseUrl storageKey : Bytes) : Bytes :=
  pathComponentOf publicBaseUrl ++ [slash] ++ storageKey

/-- What is hashed. -/
def payload (expiresAt : Int) (uri secret : Bytes) : Bytes :=
  decimal expiresAt ++ uri ++ ascii " " ++ secret

def token (md5 : Bytes → Digest) (publicBaseUrl secret storageKey : Bytes) (expiresAt : Int) :
    Bytes :=
  md5Base64Url md5 (payload expiresAt (uri publicBaseUrl storageKey) secret)

/-- `DownloadUrlSigner::sign`. -/
def sign (md5 : Bytes → Digest) (publicBaseUrl secret storageKey : Bytes) (expiresAt : Int) :
    Bytes :=
  withoutTrailingSlash publicBaseUrl ++ [slash] ++ storageKey ++ ascii "?token=" ++
    token md5 publicBaseUrl secret storageKey expiresAt ++ ascii "&expires=" ++ decimal expiresAt

end DownloadUrlSigner

open DownloadUrlSigner (md5Base64Url payload token)

/-- The URLs of a plan are signed like this. -/
theorem sign_eq (env : Env) (md5 : Bytes → Digest)
    (h : ∀ text, env.md5Base64Url text = md5Base64Url md5 text) (storageKey : Bytes)
    (expiresAt : Nat) : env.sign storageKey expiresAt =
      DownloadUrlSigner.sign md5 env.signing.publicBaseUrl env.signing.secret storageKey
        expiresAt := by
  unfold Env.sign
  dsimp only
  rw [h]
  rfl

/-! ## The file server -/

namespace FileServer

/-- `$arg_…`; empty for an argument that is not there. -/
def argument (name query : Bytes) : Bytes :=
  (((Uris.arguments query).find? (fun arg => arg.1 == name)).map Prod.snd).getD []

/-- `secure_link $arg_token,$arg_expires`: the checksum and the lifetime are on the two sides of
the first comma. -/
def secureLink (query : Bytes) : Bytes × Bytes :=
  let value := argument (ascii "token") query ++ [0x2c] ++ argument (ascii "expires") query
  (value.takeWhile (fun c => !(c == 0x2c)), (value.dropWhile (fun c => !(c == 0x2c))).drop 1)

/-- `secure_link_md5 "$secure_link_expires$uri SECRET"`, for a request for the URL. -/
def hashed (normalise : Bytes → Bytes) (secret url : Bytes) : Bytes :=
  (secureLink ((Uris.query url).getD [])).2 ++ normalise (Uris.path url) ++ ascii " " ++ secret

/-- The token of the URL is the checksum. -/
def Verifies (md5 : Bytes → Digest) (normalise : Bytes → Bytes) (secret url : Bytes) : Prop :=
  Base64.decode BASE64URL (secureLink ((Uris.query url).getD [])).1 =
    some (md5 (hashed normalise secret url)).1

/-- A segment that normalising keeps. -/
structure PlainSegment (segment : Bytes) : Prop where
  proper : segment ≠ [dot] ∧ segment ≠ [dot, dot]
  characters : ∀ c ∈ segment, c ≠ slash ∧ c ≠ question ∧ c ≠ hash ∧ c ≠ 0x25

/-- Segments behind a slash each. -/
def joined (segments : List Bytes) : Bytes :=
  (segments.map (fun segment => slash :: segment)).flatten

/-- A path without escapes, empty segments and dot segments; only the last may be empty. -/
def Normal (path : Bytes) : Prop :=
  ∃ segments last, path = joined segments ++ slash :: last ∧
    (∀ segment ∈ segments, segment ≠ [] ∧ PlainSegment segment) ∧ PlainSegment last

end FileServer

open FileServer

/-! ## Base URLs -/

/-- `scheme://authority/path` with any number of slashes behind it. -/
structure PublicBaseUrl where
  scheme : Bytes
  authority : Bytes
  segments : List Bytes
  trailing : Nat
  scheme_ne_nil : scheme ≠ []
  scheme_plain : ∀ c ∈ scheme, c ≠ colon ∧ c ≠ slash ∧ c ≠ question ∧ c ≠ hash ∧ c ≠ 0x25
  authority_plain : ∀ c ∈ authority, c ≠ slash ∧ c ≠ question ∧ c ≠ hash ∧ c ≠ 0x25
  segments_plain : ∀ segment ∈ segments, segment ≠ [] ∧ PlainSegment segment

def PublicBaseUrl.text (base : PublicBaseUrl) : Bytes :=
  base.scheme ++ colon :: slash :: slash :: (base.authority ++ joined base.segments ++
    List.replicate base.trailing slash)

/-! ## What the signer makes of a base URL -/

section Trim

variable {text front : Bytes}

theorem withoutTrailingSlash_eq (text : Bytes) :
    withoutTrailingSlash text = text.rdropWhile (· == slash) := rfl

theorem withoutTrailingSlash_slashes (text : Bytes) (n : Nat) :
    withoutTrailingSlash (text ++ List.replicate n slash) = withoutTrailingSlash text := by
  have hslashes : (List.replicate n slash).rdropWhile (· == slash) = [] := by
    rw [List.rdropWhile_eq_nil_iff]
    intro c hc
    rw [List.eq_of_mem_replicate hc]
    rfl
  rw [withoutTrailingSlash_eq, rdropWhile_append, if_pos hslashes]
  rfl

theorem withoutTrailingSlash_of_getLast {c : UInt8} (h : text.getLast? = some c) (hc : c ≠ slash) :
    withoutTrailingSlash text = text := by
  rw [withoutTrailingSlash_eq, List.rdropWhile_eq_self_iff]
  intro hne
  rw [List.getLast?_eq_some_getLast hne] at h
  rw [Option.some.inj h, beq_iff_eq]
  exact hc

end Trim

section Joined

variable {segments : List Bytes}

theorem joined_concat (segments : List Bytes) (segment : Bytes) :
    joined (segments ++ [segment]) = joined segments ++ slash :: segment := by
  simp [joined]

theorem mem_joined {c : UInt8} (h : c ∈ joined segments) :
    c = slash ∨ ∃ segment ∈ segments, c ∈ segment := by
  rw [joined, List.mem_flatten] at h
  obtain ⟨_, hpiece, hc⟩ := h
  obtain ⟨segment, hsegment, rfl⟩ := List.mem_map.mp hpiece
  rcases List.mem_cons.mp hc with rfl | hc
  · exact Or.inl rfl
  · exact Or.inr ⟨segment, hsegment, hc⟩

/-- What follows an authority is nothing or begins with a slash. -/
theorem head_joined (segments : List Bytes) {rest : Bytes}
    (hrest : rest = [] ∨ rest.head? = some slash) :
    joined segments ++ rest = [] ∨ (joined segments ++ rest).head? = some slash := by
  cases segments with
  | nil => exact hrest
  | cons segment segments => exact Or.inr rfl

/-- A path of proper segments does not end with a slash. -/
theorem getLast_joined (hne : segments ≠ [])
    (h : ∀ segment ∈ segments, segment ≠ [] ∧ PlainSegment segment) :
    ∃ c, (joined segments).getLast? = some c ∧ c ≠ slash := by
  rcases List.eq_nil_or_concat segments with rfl | ⟨front, segment, rfl⟩
  · exact absurd rfl hne
  · rw [List.concat_eq_append] at h ⊢
    obtain ⟨hsegment, hplain⟩ := h segment (by simp)
    refine ⟨segment.getLast hsegment, ?_, (hplain.characters _ (List.getLast_mem hsegment)).1⟩
    rw [joined_concat, List.getLast?_append_of_ne_nil _ (List.cons_ne_nil slash segment),
      List.getLast?_cons, List.getLast?_eq_some_getLast hsegment]
    rfl

theorem withoutTrailingSlash_joined (front : Bytes) (hne : segments ≠ [])
    (h : ∀ segment ∈ segments, segment ≠ [] ∧ PlainSegment segment) :
    withoutTrailingSlash (front ++ joined segments) = front ++ joined segments := by
  obtain ⟨c, hlast, hc⟩ := getLast_joined hne h
  refine withoutTrailingSlash_of_getLast (c := c) ?_ hc
  rw [List.getLast?_append, hlast]
  rfl

end Joined

section Search

/-- The first `://` is the one behind the scheme. -/
theorem findIdx?_scheme {scheme : Bytes} (h : ∀ c ∈ scheme, c ≠ colon) (rest : Bytes) :
    (scheme ++ colon :: slash :: slash :: rest).tails.findIdx?
      (fun rest => startsWith rest (ascii "://")) = some scheme.length := by
  induction scheme with
  | nil => rfl
  | cons c scheme ih =>
      have hno : startsWith (c :: (scheme ++ colon :: slash :: slash :: rest)) (ascii "://") =
          false := by
        have hc := h c List.mem_cons_self
        have hlead : ascii "://" = colon :: [slash, slash] := rfl
        rw [startsWith, hlead, beq_eq_false_iff_ne]
        exact fun heq => hc (List.cons.inj heq).1
      rw [List.cons_append, List.tails_cons, List.findIdx?_cons, hno,
        ih (fun d hd => h d (List.mem_cons_of_mem c hd))]
      rfl

theorem idxOf?_slash {front : Bytes} (h : ∀ c ∈ front, c ≠ slash) (rest : Bytes) :
    (front ++ slash :: rest).idxOf? slash = some front.length := by
  induction front with
  | nil => rfl
  | cons c front ih =>
      have hne : (c == slash) = false := beq_eq_false_iff_ne.mpr (h c List.mem_cons_self)
      rw [List.cons_append, List.idxOf?_cons, hne, ih (fun d hd => h d (List.mem_cons_of_mem c hd))]
      rfl

end Search

namespace PublicBaseUrl

variable (base : PublicBaseUrl)

/-- **The path that is hashed** is that of the base URL. -/
theorem pathComponentOf_text : pathComponentOf base.text = joined base.segments := by
  have hcolon : ∀ c ∈ base.scheme, c ≠ colon := fun c hc => (base.scheme_plain c hc).1
  have hauthority : ∀ c ∈ base.authority, c ≠ slash := fun c hc => (base.authority_plain c hc).1
  have htext : base.text = base.scheme ++ [colon, slash, slash] ++ (base.authority ++
      (joined base.segments ++ List.replicate base.trailing slash)) := by
    rw [text, List.append_assoc base.authority, List.append_assoc]
    rfl
  have hscheme : base.text.drop (base.scheme.length + 3) = base.authority ++
      (joined base.segments ++ List.replicate base.trailing slash) := by
    rw [htext, List.drop_left' (by rw [List.length_append]; rfl)]
  have htrimmed : withoutTrailingSlash (joined base.segments ++
      List.replicate base.trailing slash) = joined base.segments := by
    rw [withoutTrailingSlash_slashes]
    by_cases hnil : base.segments = []
    · rw [hnil]
      rfl
    · exact withoutTrailingSlash_joined [] hnil base.segments_plain
  have hfind : base.text.tails.findIdx? (fun rest => startsWith rest (ascii "://")) =
      some base.scheme.length := findIdx?_scheme hcolon _
  unfold pathComponentOf
  rw [hfind]
  dsimp only
  rw [hscheme]
  have hslashes : List.replicate base.trailing slash = [] ∨
      (List.replicate base.trailing slash).head? = some slash := by
    cases base.trailing with
    | zero => exact Or.inl rfl
    | succ n => exact Or.inr rfl
  generalize htail : joined base.segments ++ List.replicate base.trailing slash = tail at *
  rcases htail ▸ head_joined base.segments hslashes with rfl | hhead
  · -- no slash behind the authority
    rw [List.append_nil, List.idxOf?_eq_none_iff.mpr (fun hc => hauthority slash hc rfl)]
    exact (List.append_eq_nil_iff.mp htail).1.symm
  · obtain ⟨more, rfl⟩ := List.head?_eq_some_iff.mp hhead
    rw [idxOf?_slash hauthority]
    show withoutTrailingSlash (base.text.drop (base.scheme.length + 3 + base.authority.length)) = _
    rw [← List.drop_drop, hscheme, List.drop_left, htrimmed]

/-- The `//authority` that is left of a base URL. -/
def origin : Bytes :=
  if base.authority = [] ∧ base.segments = [] then [] else slash :: slash :: base.authority

/-- **The base of the URL** is the base URL without its slashes. -/
theorem withoutTrailingSlash_text : withoutTrailingSlash base.text =
    base.scheme ++ colon :: (base.origin ++ joined base.segments) := by
  have htext : base.text = (base.scheme ++ colon :: slash :: slash :: (base.authority ++
      joined base.segments)) ++ List.replicate base.trailing slash := by
    rw [text]
    simp only [List.append_assoc, List.cons_append]
  rw [htext, withoutTrailingSlash_slashes]
  by_cases hsegments : base.segments = []
  · rw [hsegments, origin, hsegments]
    by_cases hauthority : base.authority = []
    · -- the slashes in front of the authority go as well
      rw [hauthority, if_pos ⟨rfl, rfl⟩]
      have hslashes := withoutTrailingSlash_slashes (base.scheme ++ [colon]) 2
      rw [List.append_assoc] at hslashes
      refine hslashes.trans (withoutTrailingSlash_of_getLast (c := colon) ?_ (by decide))
      exact List.getLast?_concat
    · rw [if_neg (fun h => hauthority h.1)]
      refine withoutTrailingSlash_of_getLast (c := base.authority.getLast hauthority) ?_
        (base.authority_plain _ (List.getLast_mem hauthority)).1
      have hlast : (base.authority ++ joined []).getLast? =
          some (base.authority.getLast hauthority) := by
        rw [show joined [] = [] from rfl, List.append_nil, List.getLast?_eq_some_getLast hauthority]
      rw [List.getLast?_append, List.getLast?_cons, List.getLast?_cons, List.getLast?_cons, hlast]
      rfl
  · rw [origin, if_neg (fun h => hsegments h.2)]
    have hjoined := withoutTrailingSlash_joined
      (base.scheme ++ colon :: slash :: slash :: base.authority) hsegments base.segments_plain
    simpa only [List.append_assoc, List.cons_append] using hjoined

end PublicBaseUrl

/-! ## The parts of a signed URL -/

section Characters

/-- What no part of a query contains. -/
def Unreserved (text : Bytes) : Prop :=
  ∀ c ∈ text, c ≠ hash ∧ c ≠ ampersand ∧ c ≠ equals ∧ c ≠ 0x2c ∧ c ≠ slash

theorem unreserved_decimal (n : Int) : Unreserved (decimal n) := by
  intro c hc
  have hbounds := mem_decimal hc
  refine ⟨?_, ?_, ?_, ?_, ?_⟩ <;>
    · rintro rfl
      revert hbounds
      decide

theorem unreserved_md5Base64Url (md5 : Bytes → Digest) (text : Bytes) :
    Unreserved (md5Base64Url md5 text) := by
  have hdigits : ∀ c ∈ BASE64URL.digits,
      c ≠ hash ∧ c ≠ ampersand ∧ c ≠ equals ∧ c ≠ 0x2c ∧ c ≠ slash := by decide +kernel
  exact fun c hc => hdigits c (Base64.mem_encode BASE64URL hc)

end Characters

section Paths

theorem plainSegment_of_hex {text : Bytes} (h : ∀ c ∈ text, isLowercaseHexDigit c = true) :
    PlainSegment text := by
  have hcharacter : ∀ c ∈ text, c ≠ dot ∧ c ≠ slash ∧ c ≠ question ∧ c ≠ hash ∧ c ≠ 0x25 := by
    intro c hc
    have hhex := h c hc
    refine ⟨?_, ?_, ?_, ?_, ?_⟩ <;>
      · rintro rfl
        revert hhex
        decide
  refine ⟨⟨?_, ?_⟩, fun c hc => (hcharacter c hc).2⟩
  · rintro rfl
    exact (hcharacter dot List.mem_cons_self).1 rfl
  · rintro rfl
    exact (hcharacter dot List.mem_cons_self).1 rfl

/-- The segments of a storage key, behind a slash. -/
theorem storageKeyFor_segments (sha256 : Bytes) : ∃ segments last,
    slash :: storageKeyFor sha256 = joined segments ++ slash :: last ∧
    (∀ segment ∈ segments, segment ≠ [] ∧ PlainSegment segment) ∧ PlainSegment last ∧
      (storageKeyFor sha256).head? ≠ some slash := by
  rw [storageKeyFor]
  split
  · rename_i hsha
    rw [isSha256Hex, Bool.and_eq_true, beq_iff_eq, List.all_eq_true] at hsha
    obtain ⟨hlength, hall⟩ := hsha
    have hlong : sha256.length = 64 := hlength
    refine ⟨[sha256.take 2, (sha256.drop 2).take 2], sha256, ?_, fun segment hsegment => ?_,
      plainSegment_of_hex hall, ?_⟩
    · simp only [joined, List.map_cons, List.map_nil, List.flatten_cons, List.flatten_nil,
        List.append_assoc, List.cons_append, List.nil_append]
    · simp only [List.mem_cons, List.not_mem_nil, or_false] at hsegment
      rcases hsegment with rfl | rfl
      · exact ⟨List.ne_nil_of_length_pos (by rw [List.length_take]; omega),
          plainSegment_of_hex (fun c hc => hall c (List.mem_of_mem_take hc))⟩
      · exact ⟨List.ne_nil_of_length_pos (by rw [List.length_take, List.length_drop]; omega),
          plainSegment_of_hex (fun c hc => hall c (List.mem_of_mem_drop (List.mem_of_mem_take hc)))⟩
    · obtain ⟨c, rest, rfl⟩ := List.exists_cons_of_length_pos (l := sha256) (by omega)
      intro hc
      have hhex := hall c List.mem_cons_self
      rw [show c = slash from Option.some.inj hc] at hhex
      exact absurd hhex (by decide)
  · exact ⟨[], [], rfl, fun _ h => (by cases h), ⟨⟨by decide, by decide⟩, fun _ h => (by cases h)⟩,
      by decide⟩

theorem normal_characters {path : Bytes} (h : Normal path) :
    ∀ c ∈ path, Uris.endsPath c = false := by
  obtain ⟨segments, last, rfl, hsegments, hlast⟩ := h
  have hplain : ∀ {c : UInt8}, c ≠ question → c ≠ hash → Uris.endsPath c = false := by
    intro c hq hh
    rw [Uris.endsPath, beq_eq_false_iff_ne.mpr hq, beq_eq_false_iff_ne.mpr hh]
    rfl
  intro c hc
  rcases List.mem_append.mp hc with hc | hc
  · rcases mem_joined hc with rfl | ⟨segment, hsegment, hc⟩
    · rfl
    · have hcharacter := (hsegments segment hsegment).2.characters c hc
      exact hplain hcharacter.2.1 hcharacter.2.2.1
  · rcases List.mem_cons.mp hc with rfl | hc
    · rfl
    · exact hplain (hlast.characters c hc).2.1 (hlast.characters c hc).2.2.1

/-- **The path that is hashed is one the server leaves alone.** -/
theorem normal_uri (base : PublicBaseUrl) (sha256 : Bytes) :
    Normal (DownloadUrlSigner.uri base.text (storageKeyFor sha256)) := by
  obtain ⟨segments, last, hkey, hsegments, hlast, -⟩ := storageKeyFor_segments sha256
  refine ⟨base.segments ++ segments, last, ?_, fun segment hsegment => ?_, hlast⟩
  · rw [DownloadUrlSigner.uri, base.pathComponentOf_text, List.append_assoc, List.singleton_append,
      hkey]
    simp only [joined, List.map_append, List.flatten_append, List.append_assoc]
  · rcases List.mem_append.mp hsegment with hmem | hmem
    · exact base.segments_plain segment hmem
    · exact hsegments segment hmem

end Paths

section Sign

variable (md5 : Bytes → Digest) (base : PublicBaseUrl) (secret sha256 : Bytes) (expiresAt : Int)

/-- A path that is hashed begins with a slash. -/
theorem uri_eq_cons (base : PublicBaseUrl) (storageKey : Bytes) :
    ∃ rest, DownloadUrlSigner.uri base.text storageKey = slash :: rest := by
  rw [DownloadUrlSigner.uri, base.pathComponentOf_text, List.append_assoc]
  have hslash : ([slash] ++ storageKey).head? = some slash := rfl
  rcases head_joined base.segments (Or.inr hslash) with hnil | hhead
  · simp at hnil
  · exact List.head?_eq_some_iff.mp hhead

/-- What is behind the question mark. -/
def signedQuery : Bytes :=
  [ampersand].intercalate ([(ascii "token",
      token md5 base.text secret (storageKeyFor sha256) expiresAt),
    (ascii "expires", decimal expiresAt)].map (fun arg => arg.1 ++ equals :: arg.2))

/-- A signed URL, put together. -/
theorem sign_text :
    DownloadUrlSigner.sign md5 base.text secret (storageKeyFor sha256) expiresAt =
      base.scheme ++ colon :: (base.origin ++
        (DownloadUrlSigner.uri base.text (storageKeyFor sha256) ++
          question :: signedQuery md5 base secret sha256 expiresAt)) := by
  have hquery : ascii "?token=" ++ token md5 base.text secret (storageKeyFor sha256) expiresAt ++
      ascii "&expires=" ++ decimal expiresAt =
        question :: signedQuery md5 base secret sha256 expiresAt := by
    have hfirst : ascii "?token=" = question :: (ascii "token" ++ [equals]) := rfl
    have hsecond : ascii "&expires=" = ampersand :: (ascii "expires" ++ [equals]) := rfl
    rw [signedQuery, List.map_cons, List.map_cons, List.map_nil, intercalate_eq_flatten, hfirst,
      hsecond]
    simp only [List.map_cons, List.map_nil, List.flatten_cons, List.flatten_nil, List.append_nil,
      List.append_assoc, List.cons_append, List.nil_append]
  rw [← hquery, DownloadUrlSigner.sign, DownloadUrlSigner.uri, base.withoutTrailingSlash_text,
    base.pathComponentOf_text]
  simp only [List.append_assoc, List.cons_append]

/-- **The arguments are recovered.** -/
theorem arguments_signedQuery : Uris.arguments (signedQuery md5 base secret sha256 expiresAt) =
    [(ascii "token", token md5 base.text secret (storageKeyFor sha256) expiresAt),
      (ascii "expires", decimal expiresAt)] := by
  have htoken := unreserved_md5Base64Url md5
    (payload expiresAt (DownloadUrlSigner.uri base.text (storageKeyFor sha256)) secret)
  refine Uris.arguments_intercalate (List.cons_ne_nil _ _) (fun arg harg => ?_)
  simp only [List.mem_cons, List.not_mem_nil, or_false] at harg
  rcases harg with rfl | rfl
  · exact ⟨show equals ∉ ascii "token" by decide, show ampersand ∉ ascii "token" by decide,
      fun hc => (htoken _ hc).2.1 rfl⟩
  · exact ⟨show equals ∉ ascii "expires" by decide, show ampersand ∉ ascii "expires" by decide,
      fun hc => (unreserved_decimal expiresAt _ hc).2.1 rfl⟩

theorem afterScheme_text (base : PublicBaseUrl) (rest : Bytes) :
    Uris.afterScheme (base.scheme ++ colon :: rest) = rest := by
  refine Uris.afterScheme_append base.scheme_ne_nil (fun c hc => ?_)
  obtain ⟨hcolon, hslash, hquestion, hhash, -⟩ := base.scheme_plain c hc
  simp only [Uris.endsScheme, Uris.endsAuthority, Uris.endsPath, Bool.or_eq_false_iff,
    beq_eq_false_iff_ne]
  exact ⟨hcolon, hslash, hquestion, hhash⟩

/-- The path that is hashed begins where the authority ends. -/
theorem afterAuthority_origin (base : PublicBaseUrl) (sha256 query : Bytes) :
    Uris.afterAuthority (base.origin ++
        (DownloadUrlSigner.uri base.text (storageKeyFor sha256) ++ question :: query)) =
      DownloadUrlSigner.uri base.text (storageKeyFor sha256) ++ question :: query := by
  rw [PublicBaseUrl.origin]
  split
  · rename_i hnone
    have huri : DownloadUrlSigner.uri base.text (storageKeyFor sha256) =
        slash :: storageKeyFor sha256 := by
      rw [DownloadUrlSigner.uri, base.pathComponentOf_text, hnone.2]
      rfl
    obtain ⟨-, -, -, -, -, hkey⟩ := storageKeyFor_segments sha256
    rw [List.nil_append, huri]
    -- two slashes would read as an authority, and no key begins with one
    refine Uris.afterAuthority_of_not (fun htwo => ?_)
    cases hkey' : storageKeyFor sha256 with
    | nil =>
        rw [hkey'] at htwo
        exact absurd (List.cons.inj (List.cons.inj htwo).2).1 (by decide)
    | cons c rest =>
        rw [hkey'] at htwo hkey
        exact hkey (congrArg some (List.cons.inj (List.cons.inj htwo).2).1)
  · have hauthority : ∀ c ∈ base.authority, Uris.endsAuthority c = false := by
      intro c hc
      obtain ⟨hslash, hquestion, hhash, -⟩ := base.authority_plain c hc
      simp only [Uris.endsAuthority, Uris.endsPath, Bool.or_eq_false_iff, beq_eq_false_iff_ne]
      exact ⟨hslash, hquestion, hhash⟩
    refine Uris.afterAuthority_append hauthority (fun c hc => ?_)
    obtain ⟨rest, huri⟩ := uri_eq_cons base (storageKeyFor sha256)
    rw [huri] at hc
    rw [← Option.some.inj hc]
    rfl

theorem hash_notMem_signedQuery : hash ∉ signedQuery md5 base secret sha256 expiresAt := by
  have hargument : ∀ {name value : Bytes}, hash ∉ name → Unreserved value →
      hash ∉ name ++ equals :: value := by
    intro name value hname hvalue hmem
    rcases List.mem_append.mp hmem with hmem | hmem
    · exact hname hmem
    · rcases List.mem_cons.mp hmem with hmem | hmem
      · exact absurd hmem (by decide)
      · exact (hvalue hash hmem).1 rfl
  intro hc
  rcases mem_intercalate hc with hc | ⟨piece, hpiece, hc⟩
  · exact absurd hc (by decide)
  · simp only [List.map_cons, List.map_nil, List.mem_cons, List.not_mem_nil, or_false] at hpiece
    rcases hpiece with rfl | rfl
    · exact hargument (by decide) (unreserved_md5Base64Url md5 _) hc
    · exact hargument (by decide) (unreserved_decimal expiresAt) hc

/-- **The path and the query of a signed URL.** -/
theorem path_query_sign :
    Uris.path (DownloadUrlSigner.sign md5 base.text secret (storageKeyFor sha256) expiresAt) =
        DownloadUrlSigner.uri base.text (storageKeyFor sha256) ∧
      Uris.query (DownloadUrlSigner.sign md5 base.text secret (storageKeyFor sha256) expiresAt) =
        some (signedQuery md5 base secret sha256 expiresAt) := by
  refine Uris.path_query_append ?_ (normal_characters (normal_uri base sha256))
    (hash_notMem_signedQuery md5 base secret sha256 expiresAt)
  rw [sign_text, afterScheme_text, afterAuthority_origin]

/-- The server's directive recovers the token and the expiry. -/
theorem secureLink_signedQuery : secureLink (signedQuery md5 base secret sha256 expiresAt) =
    (token md5 base.text secret (storageKeyFor sha256) expiresAt, decimal expiresAt) := by
  have htoken : argument (ascii "token") (signedQuery md5 base secret sha256 expiresAt) =
      token md5 base.text secret (storageKeyFor sha256) expiresAt := by
    rw [argument, arguments_signedQuery]
    rfl
  have hexpires : argument (ascii "expires") (signedQuery md5 base secret sha256 expiresAt) =
      decimal expiresAt := by
    rw [argument, arguments_signedQuery]
    rfl
  -- neither part has a comma, so the server's split is where the signer joined
  have hcomma : ∀ c ∈ token md5 base.text secret (storageKeyFor sha256) expiresAt,
      (c == 0x2c) = false := fun c hc =>
    beq_eq_false_iff_ne.mpr (unreserved_md5Base64Url md5 _ c hc).2.2.2.1
  have hstop : ∀ c, ([0x2c] ++ decimal expiresAt).head? = some c → (c == 0x2c) = true := by
    intro c hc
    rw [← Option.some.inj hc]
    rfl
  unfold secureLink
  dsimp only
  rw [htoken, hexpires, List.append_assoc,
    Uris.takeWhile_part (p := (· == 0x2c)) hcomma hstop,
    Uris.dropWhile_part (p := (· == 0x2c)) hcomma hstop]
  rfl

end Sign

/-- **The hashed text gives the expiry and the path away.** -/
theorem payload_inj {expiresAt expiresAt' : Int} {rest rest' secret : Bytes}
    (h : payload expiresAt (slash :: rest) secret = payload expiresAt' (slash :: rest') secret) :
    expiresAt = expiresAt' ∧ rest = rest' := by
  -- no expiry has a slash, so the first slash ends it
  have hcode : PrefixCode (fun n : Int => decimal n ++ [slash]) :=
    PrefixCode.of_stop decimal_injective
      (fun n hc => (unreserved_decimal n slash hc).2.2.2.2 rfl)
  unfold payload at h
  have hsplit : (decimal expiresAt ++ [slash]) ++ (rest ++ (ascii " " ++ secret)) =
      (decimal expiresAt' ++ [slash]) ++ (rest' ++ (ascii " " ++ secret)) := by
    simpa only [List.append_assoc, List.cons_append, List.nil_append] using h
  obtain ⟨hexpires, hrest⟩ := hcode _ _ _ _ hsplit
  exact ⟨hexpires, List.append_cancel_right hrest⟩

/-- **Signed URLs verify**, and their tokens stand for one blob and expiry: for every base URL
and secret, the path and the arguments of a signed URL are those it was put together from, the
server hashes the text that was hashed and finds the token to be its checksum; the text that is
hashed gives the expiry and the path away, and the path the blob. -/
theorem signed_urls_verify (md5 : Bytes → Digest) (normalise : Bytes → Bytes)
    (hnormal : ∀ path, Normal path → normalise path = path) (base : PublicBaseUrl)
    (secret : Bytes) :
    (∀ sha256 expiresAt,
      let url := DownloadUrlSigner.sign md5 base.text secret (storageKeyFor sha256) expiresAt
      let uri := DownloadUrlSigner.uri base.text (storageKeyFor sha256)
      Uris.path url = uri ∧
      (∃ query, Uris.query url = some query ∧ Uris.arguments query =
        [(ascii "token", md5Base64Url md5 (payload expiresAt uri secret)),
          (ascii "expires", decimal expiresAt)]) ∧
      hashed normalise secret url = payload expiresAt uri secret ∧
      Verifies md5 normalise secret url) ∧
    (∀ (base' : PublicBaseUrl) sha256 sha256' expiresAt expiresAt',
      let uri := DownloadUrlSigner.uri base.text (storageKeyFor sha256)
      let uri' := DownloadUrlSigner.uri base'.text (storageKeyFor sha256')
      payload expiresAt uri secret = payload expiresAt' uri' secret →
        expiresAt = expiresAt' ∧ uri = uri') ∧
    (∀ sha256 sha256', isSha256Hex sha256 = true → isSha256Hex sha256' = true →
      DownloadUrlSigner.uri base.text (storageKeyFor sha256) =
        DownloadUrlSigner.uri base.text (storageKeyFor sha256') → sha256 = sha256') := by
  refine ⟨fun sha256 expiresAt => ?_, fun base' sha256 sha256' expiresAt expiresAt' => ?_,
    fun sha256 sha256' hsha hsha' huri => ?_⟩
  · obtain ⟨hpath, hquery⟩ := path_query_sign md5 base secret sha256 expiresAt
    intro url uri
    have hhashed : hashed normalise secret url = payload expiresAt uri secret := by
      rw [hashed, hquery, Option.getD_some, secureLink_signedQuery, hpath,
        hnormal _ (normal_uri base sha256)]
      rfl
    refine ⟨hpath, ⟨_, hquery, arguments_signedQuery md5 base secret sha256 expiresAt⟩, hhashed, ?_⟩
    rw [Verifies, hhashed, hquery, Option.getD_some, secureLink_signedQuery]
    exact Base64.decode_encode BASE64URL _
  · intro uri uri' hpayload
    obtain ⟨rest, huri⟩ := uri_eq_cons base (storageKeyFor sha256)
    obtain ⟨rest', huri'⟩ := uri_eq_cons base' (storageKeyFor sha256')
    have hboth : payload expiresAt (slash :: rest) secret =
        payload expiresAt' (slash :: rest') secret := huri ▸ huri' ▸ hpayload
    obtain ⟨hexpires, rfl⟩ := payload_inj hboth
    exact ⟨hexpires, huri.trans huri'.symm⟩
  · have hkey : storageKeyFor sha256 = storageKeyFor sha256' := List.append_cancel_left huri
    rw [← drop_storageKeyFor hsha, hkey, drop_storageKeyFor hsha']

namespace Demo

/-- `http://localhost:8081/files/`. -/
def localhost : PublicBaseUrl where
  scheme := ascii "http"
  authority := ascii "localhost:8081"
  segments := [ascii "files"]
  trailing := 1
  scheme_ne_nil := by decide
  scheme_plain := by decide +kernel
  authority_plain := by decide +kernel
  segments_plain := by
    intro segment hsegment
    rw [List.mem_singleton.mp hsegment]
    exact ⟨by decide, ⟨by decide, by decide⟩, by decide +kernel⟩

/-- The MD5 of "1700000000/files/e3/b0/e3b0…b855 secret". -/
def md5 (_ : Bytes) : Digest :=
  ⟨[0x98, 0x39, 0xd6, 0x44, 0x49, 0x2c, 0xe5, 0x95, 0x30, 0x56, 0x42, 0x4e, 0x54, 0xe9, 0x2c, 0x53],
    rfl⟩

end Demo

/-- The URL of the empty blob on localhost. -/
theorem signed_urls_verify_localhost :
    DownloadUrlSigner.sign Demo.md5 Demo.localhost.text (ascii "secret")
        (storageKeyFor Launcher.Demo.shaEmpty) 1700000000 =
      ascii "http://localhost:8081/files/" ++ storageKeyFor Launcher.Demo.shaEmpty ++
        ascii "?token=mDnWREks5ZUwVkJOVOksUw&expires=1700000000" ∧
    Verifies Demo.md5 id (ascii "secret") (DownloadUrlSigner.sign Demo.md5 Demo.localhost.text
      (ascii "secret") (storageKeyFor Launcher.Demo.shaEmpty) 1700000000) :=
  ⟨by decide +kernel, ((signed_urls_verify Demo.md5 id (fun _ _ => rfl) Demo.localhost
    (ascii "secret")).1 Launcher.Demo.shaEmpty 1700000000).2.2.2⟩

end Launcher.Storefront
