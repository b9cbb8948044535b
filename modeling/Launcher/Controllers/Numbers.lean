import Launcher.Common.ClientAddress
import Launcher.Common.JsonBody
import Launcher.Storefront.Gallery
import Launcher.Storefront.Ownership
import Launcher.Storefront.Permissions

set_option autoImplicit false

/-! # Numbers from clients

Three controllers turn `page` and `pageSize` into a limit and an offset, each with its own copy of
the arithmetic and its own bounds, and two take a `sortOrder`, one from the query string and one
from a JSON body. All of it ends in an `int`.

The product of a page and a size need not fit: `checkedInt` is `none` where the behaviour of the
source is undefined. A `sortOrder` of a body is narrowed from 64 bits. `integers_exact_iff` is
when the numbers are those of the client. -/

namespace Launcher.Controllers

open Launcher.Lib Launcher.Storefront

def DEFAULT_GAME_PAGE_SIZE : Int := 20
def DEFAULT_PATCH_NOTE_PAGE_SIZE : Int := 20
def DEFAULT_ADMIN_USER_PAGE_SIZE : Int := 25
def MAX_ADMIN_USER_PAGE_SIZE : Int := 100
def DEFAULT_AUDIT_PAGE_SIZE : Int := 50
def MAX_AUDIT_PAGE_SIZE : Int := 200
def DEFAULT_CRASH_PAGE_SIZE : Int := 25
def MAX_CRASH_PAGE_SIZE : Int := 100

/-- The result of `int` arithmetic, where it is defined. -/
def checkedInt (n : Int) : Option Int := if -2 ^ 31 ≤ n ∧ n < 2 ^ 31 then some n else none

/-- `static_cast<int>` of an `int64_t`. -/
def narrow (n : Int) : Int := n.bmod (2 ^ 32)

/-- `std::clamp`. -/
def clamp (value low high : Int) : Int :=
  if value < low then low else if high < value then high else value

/-- A parameter as an `int`, or the fallback for what is no number. -/
def intOr (text : Bytes) (fallback : Int) : Int :=
  if text.isEmpty then fallback else (ClientAddress.parseNumber text).getD fallback

/-- `HttpRequest::getParameter`: empty for a parameter that is not there. -/
abbrev Parameters := Bytes → Bytes

/-! ## Pages -/

namespace CatalogJson

def parseInt (text : Bytes) (fallback : Int) : Int := intOr text fallback

def gameQueryOf (request : Parameters) : Option GameQuery := do
  let sort : GameSort :=
    if request (ascii "sort") = ascii "title" then .Title
    else if request (ascii "sort") = ascii "recent" then .RecentlyAdded
    else .ReleaseDate
  let limit := clamp (parseInt (request (ascii "pageSize")) DEFAULT_GAME_PAGE_SIZE) 1
    MAX_GAME_PAGE_SIZE
  let page := max (parseInt (request (ascii "page")) 1) 1
  let before ← checkedInt (page - 1)
  let offset ← checkedInt (before * limit)
  some { search := request (ascii "search"), sort := sort, limit := limit, offset := offset }

end CatalogJson

namespace PatchNoteController

def parameterAsInt (request : Parameters) (name : Bytes) (fallback : Int) : Int :=
  intOr (request name) fallback

/-- The limit and the offset that `listForGame` asks its service for. -/
def paging (request : Parameters) : Option (Int × Int) := do
  let limit := clamp (parameterAsInt request (ascii "pageSize") DEFAULT_PATCH_NOTE_PAGE_SIZE) 1
    Notes.MAX_PATCH_NOTE_PAGE_SIZE
  let page := max (parameterAsInt request (ascii "page") 1) 1
  let before ← checkedInt (page - 1)
  let offset ← checkedInt (before * limit)
  some (limit, offset)

end PatchNoteController

namespace AdminJson

def parseInt (text : Bytes) (fallback : Int) : Int := intOr text fallback

def pagingOf (request : Parameters) (defaultSize maxSize : Int) : Option (Int × Int) := do
  let size := clamp (parseInt (request (ascii "pageSize")) defaultSize) 1 maxSize
  let page := max (parseInt (request (ascii "page")) 1) 1
  let before ← checkedInt (page - 1)
  let offset ← checkedInt (before * size)
  some (size, offset)

end AdminJson

/-- The listings with pages. -/
inductive Listing
  | games
  | patchNotes
  | users
  | audit
  | crashes
  deriving DecidableEq, Repr

def Listing.defaultSize : Listing → Int
  | .games => DEFAULT_GAME_PAGE_SIZE
  | .patchNotes => DEFAULT_PATCH_NOTE_PAGE_SIZE
  | .users => DEFAULT_ADMIN_USER_PAGE_SIZE
  | .audit => DEFAULT_AUDIT_PAGE_SIZE
  | .crashes => DEFAULT_CRASH_PAGE_SIZE

def Listing.maxSize : Listing → Int
  | .games => MAX_GAME_PAGE_SIZE
  | .patchNotes => Notes.MAX_PATCH_NOTE_PAGE_SIZE
  | .users => MAX_ADMIN_USER_PAGE_SIZE
  | .audit => MAX_AUDIT_PAGE_SIZE
  | .crashes => MAX_CRASH_PAGE_SIZE

/-- The limit and the offset of a request, each by its own copy. -/
def Listing.paging (request : Parameters) : Listing → Option (Int × Int)
  | .games => (CatalogJson.gameQueryOf request).map (fun query => (query.limit, query.offset))
  | .patchNotes => PatchNoteController.paging request
  | .users => AdminJson.pagingOf request DEFAULT_ADMIN_USER_PAGE_SIZE MAX_ADMIN_USER_PAGE_SIZE
  | .audit => AdminJson.pagingOf request DEFAULT_AUDIT_PAGE_SIZE MAX_AUDIT_PAGE_SIZE
  | .crashes => AdminJson.pagingOf request DEFAULT_CRASH_PAGE_SIZE MAX_CRASH_PAGE_SIZE

/-- The page a request is for. -/
def pageOf (request : Parameters) : Int := max (intOr (request (ascii "page")) 1) 1

/-- The page size a request is for. -/
def Listing.sizeOf (request : Parameters) (listing : Listing) : Int :=
  clamp (intOr (request (ascii "pageSize")) listing.defaultSize) 1 listing.maxSize

/-! ## The order of a picture -/

namespace MediaController

def KIND_VALUES : Bytes := ascii "cover, banner, logo, screenshot, video"

/-- `domain::parseMediaKind`. -/
def parseMediaKind (value : Bytes) : Option MediaKind :=
  if value = ascii "cover" then some .Cover
  else if value = ascii "banner" then some .Banner
  else if value = ascii "logo" then some .Logo
  else if value = ascii "screenshot" then some .Screenshot
  else if value = ascii "video" then some .Video
  else none

def requireKind (request : Parameters) : Result MediaKind :=
  let kind := request (ascii "kind")
  if kind.isEmpty then
    failure .InvalidInput (ascii "a kind query parameter is required, one of: " ++ KIND_VALUES)
  else
    match parseMediaKind kind with
    | none => failure .InvalidInput (ascii "kind must be one of: " ++ KIND_VALUES)
    | some parsed => .ok parsed

/-- `sortOrder` of an upload. -/
def optionalSortOrder (request : Parameters) : Result Int :=
  let text := request (ascii "sortOrder")
  if text.isEmpty then .ok 0
  else
    match ClientAddress.parseNumber text with
    | none => failure .InvalidInput (ascii "sortOrder must be a whole number")
    | some value => .ok value

/-- The body of the request is the picture. -/
def commandOf (request : Parameters) (body : Bytes) : Result Media.UploadMediaCommand := do
  let kind ← requireKind request
  let sortOrder ← optionalSortOrder request
  return { kind := kind, altText := request (ascii "altText"), sortOrder := sortOrder,
           bytes := body }

def upload (env : Storefront.Env) (actor : Actor) (idOrSlug : Bytes) (request : Parameters)
    (body : Bytes) : Coroutine GameMedia :=
  require (commandOf request body) >>= Media.upload env actor idOrSlug

/-- `app::optionalString`. -/
def optionalString (body : Json) (field fallback : Bytes) : Except LogicError Bytes := do
  let present ← JsonValue.isMember body field
  match present, JsonValue.member body field with
  | true, .string value => return value
  | _, _ => return fallback

/-- The changes that a PATCH asks for. -/
def changesOf (body : Json) : Except LogicError (Result GameMediaUpdate) := do
  let altText ← if ← JsonValue.isMember body (ascii "altText") then
      some <$> optionalString body (ascii "altText") []
    else pure none
  if ← JsonValue.isMember body (ascii "sortOrder") then
    match ← requireInt64 body (ascii "sortOrder") with
    | .error e => return .error e
    | .ok n => return .ok { altText := altText, sortOrder := some (narrow n) }
  else return .ok { altText := altText }

def update (actor : Actor) (mediaId : Bytes) (request : Option Json) :
    Except LogicError (Coroutine GameMedia) :=
  match requireJsonObject request with
  | .error e => .ok (require (.error e))
  | .ok body =>
      match changesOf body with
      | .error thrown => .error thrown
      | .ok changes => .ok (require changes >>= Media.update actor mediaId)

end MediaController

/-! ## Windows -/

theorem clamp_bounds {low high : Int} (h : low ≤ high) (value : Int) :
    low ≤ clamp value low high ∧ clamp value low high ≤ high := by
  unfold clamp
  split_ifs <;> omega

theorem Listing.sizeOf_bounds (request : Parameters) (listing : Listing) :
    1 ≤ listing.sizeOf request ∧ listing.sizeOf request ≤ listing.maxSize :=
  clamp_bounds (by cases listing <;> decide) _

theorem one_le_pageOf (request : Parameters) : 1 ≤ pageOf request := le_max_right _ _

theorem pageOf_le (request : Parameters) : pageOf request < 2 ^ 31 := by
  have hint : ∀ text : Bytes, intOr text 1 < 2 ^ 31 := by
    intro text
    unfold intOr
    split_ifs
    · decide
    · cases hnumber : ClientAddress.parseNumber text with
      | none => decide
      | some n =>
          have hrange := (Option.filter_eq_some_iff.mp hnumber).2
          simp only [decide_eq_true_eq] at hrange
          rw [Option.getD_some]
          omega
  exact max_lt (hint _) (by decide)

theorem checkedInt_of_bounds {n : Int} (h : -2 ^ 31 ≤ n ∧ n < 2 ^ 31) : checkedInt n = some n :=
  if_pos h

/-- The arithmetic of a listing: only the product can overflow. -/
theorem offset_eq {α : Type} (request : Parameters) (size : Int) (f : Int → α) :
    ((checkedInt (pageOf request - 1)).bind fun before =>
      (checkedInt (before * size)).bind fun offset => some (f offset)) =
        (checkedInt ((pageOf request - 1) * size)).map f := by
  have hlow := one_le_pageOf request
  have hhigh := pageOf_le request
  have hbefore : checkedInt (pageOf request - 1) = some (pageOf request - 1) :=
    checkedInt_of_bounds (by omega)
  rw [hbefore, Option.bind_some]
  cases checkedInt ((pageOf request - 1) * size) <;> rfl

/-- All copies compute the same. -/
theorem Listing.paging_eq (request : Parameters) (listing : Listing) :
    listing.paging request = (checkedInt ((pageOf request - 1) * listing.sizeOf request)).map
      (fun offset => (listing.sizeOf request, offset)) := by
  cases listing with
  | games =>
      refine (congrArg (Option.map _) (offset_eq request _ _)).trans ?_
      rw [Option.map_map]
      rfl
  | patchNotes => exact offset_eq request _ _
  | users => exact offset_eq request _ _
  | audit => exact offset_eq request _ _
  | crashes => exact offset_eq request _ _

/-- The limit is within its bounds, and the offset is where the page begins. -/
def Listing.Exact (request : Parameters) (listing : Listing) : Prop :=
  ∃ limit offset, listing.paging request = some (limit, offset) ∧ 1 ≤ limit ∧
    limit ≤ listing.maxSize ∧ offset = (pageOf request - 1) * limit

theorem Listing.exact_iff (request : Parameters) (listing : Listing) :
    listing.Exact request ↔ (pageOf request - 1) * listing.sizeOf request < 2 ^ 31 := by
  obtain ⟨hone, hmax⟩ := listing.sizeOf_bounds request
  have hlow := one_le_pageOf request
  have hnonneg : 0 ≤ (pageOf request - 1) * listing.sizeOf request :=
    mul_nonneg (by omega) (by omega)
  unfold Listing.Exact
  rw [Listing.paging_eq]
  constructor
  · rintro ⟨limit, offset, hpaging, -⟩
    obtain ⟨product, hproduct, -⟩ := Option.map_eq_some_iff.mp hpaging
    unfold checkedInt at hproduct
    split_ifs at hproduct with hrange
    exact hrange.2
  · intro h
    rw [checkedInt_of_bounds ⟨by omega, h⟩]
    exact ⟨_, _, rfl, hone, hmax, rfl⟩

/-- The windows of two requests begin at zero or later and, where the limit is the same and the
page another, have no row in common. -/
def Listing.Apart (request request' : Parameters) (listing : Listing) : Prop :=
  ∃ limit offset limit' offset', listing.paging request = some (limit, offset) ∧
    listing.paging request' = some (limit', offset') ∧ 0 ≤ offset ∧ 0 ≤ offset' ∧
    (limit = limit' → pageOf request ≠ pageOf request' →
      ∀ row, ¬ (offset ≤ row ∧ row < offset + limit ∧ offset' ≤ row ∧ row < offset' + limit))

theorem Listing.Exact.apart {request request' : Parameters} {listing : Listing}
    (h : listing.Exact request) (h' : listing.Exact request') : listing.Apart request request' := by
  obtain ⟨limit, offset, hpaging, hone, -, rfl⟩ := h
  obtain ⟨limit', offset', hpaging', hone', -, rfl⟩ := h'
  have hlow := one_le_pageOf request
  have hlow' := one_le_pageOf request'
  refine ⟨limit, _, limit', _, hpaging, hpaging', mul_nonneg (by omega) (by omega),
    mul_nonneg (by omega) (by omega), ?_⟩
  rintro rfl hne row ⟨hrow, hend, hrow', hend'⟩
  -- the later page begins a whole window behind the earlier one
  rcases lt_or_gt_of_ne hne with hlt | hlt
  · have hstep : (pageOf request - 1 + 1) * limit ≤ (pageOf request' - 1) * limit :=
      mul_le_mul_of_nonneg_right (by omega) (by omega)
    rw [add_mul, one_mul] at hstep
    omega
  · have hstep : (pageOf request' - 1 + 1) * limit ≤ (pageOf request - 1) * limit :=
      mul_le_mul_of_nonneg_right (by omega) (by omega)
    rw [add_mul, one_mul] at hstep
    omega

/-! ## Stored as sent -/

theorem narrow_eq_self_iff (n : Int) : narrow n = n ↔ -2 ^ 31 ≤ n ∧ n < 2 ^ 31 := by
  unfold narrow
  rw [Int.bmod_def]
  omega

namespace MediaController

/-- The body of a PATCH that has `n` for the order. -/
structure Asks (body : Json) (n : Int) : Prop where
  object : JsonValue.isObject body = true
  value : JsonValue.member body (ascii "sortOrder") = .number n
  int64 : -2 ^ 63 ≤ n ∧ n < 2 ^ 63

/-- The text of the body, if it has one. -/
def altTextOf (body : Json) : Option Bytes :=
  match JsonValue.isMember body (ascii "altText"), JsonValue.member body (ascii "altText") with
  | .ok true, .string value => some value
  | .ok true, _ => some []
  | _, _ => none

theorem isMember_of_member {members : List (Bytes × Json)} {key : Bytes} {value : Json}
    (h : JsonValue.member (.object members) key = value) (hne : value ≠ .null) :
    JsonValue.isMember (.object members) key = .ok true := by
  unfold JsonValue.member at h
  cases hfound : members.reverse.find? (fun m => m.1 == key) with
  | none =>
      dsimp only at h
      rw [hfound] at h
      exact absurd h.symm hne
  | some m =>
      have hkey := List.find?_some hfound
      have hmem := List.mem_of_find?_eq_some hfound
      have hany : members.any (fun m => m.1 == key) = true :=
        List.any_eq_true.mpr ⟨m, List.mem_reverse.mp hmem, hkey⟩
      rw [JsonValue.isMember, hany]

/-- A whole number within the range of `isInt64` passes the tests of `requireInt64`. -/
theorem isIntegerIn_intCast {low high n : Int} (hlow : low ≤ n) (hhigh : n ≤ high) :
    JsonValue.isIntegerIn low high (.number n) = true := by
  simp [JsonValue.isIntegerIn, hlow, hhigh]

theorem requireInt64_eq {body : Json} {n : Int} (h : Asks body n) :
    requireInt64 body (ascii "sortOrder") = .ok (.ok n) := by
  obtain ⟨members, rfl⟩ : ∃ members, body = .object members := by
    cases body <;> first | exact ⟨_, rfl⟩ | cases h.object
  have hpresent := isMember_of_member h.value (by simp)
  obtain ⟨hlow, hhigh⟩ := h.int64
  have hint64 : JsonValue.isInt64 (.number n) = true := isIntegerIn_intCast hlow (by omega)
  have hintegral : JsonValue.isIntegral (.number n) = true := isIntegerIn_intCast hlow (by omega)
  unfold requireInt64
  rw [hpresent, h.value]
  simp [bind, Except.bind, JsonValue.isNumeric, hint64, hintegral, JsonValue.asInteger]
  rfl

theorem changesOf_eq {body : Json} {n : Int} (h : Asks body n) :
    changesOf body = .ok (.ok { altText := altTextOf body, sortOrder := some (narrow n) }) := by
  have hint := requireInt64_eq h
  obtain ⟨members, rfl⟩ : ∃ members, body = .object members := by
    cases body <;> first | exact ⟨_, rfl⟩ | cases h.object
  have hpresent := isMember_of_member h.value (by simp)
  unfold changesOf
  rw [hpresent, hint]
  cases halt : members.any (fun m => m.1 == ascii "altText") with
  | false =>
      have hmember : JsonValue.isMember (.object members) (ascii "altText") = .ok false :=
        congrArg _ halt
      unfold altTextOf
      rw [hmember]
      rfl
  | true =>
      have hmember : JsonValue.isMember (.object members) (ascii "altText") = .ok true :=
        congrArg _ halt
      unfold altTextOf optionalString
      rw [hmember]
      cases JsonValue.member (.object members) (ascii "altText") <;> rfl

end MediaController

section Update

variable (env : Storefront.Env) (s : Storefront.State) (actor : Actor) (mediaId : Bytes)

/-- The statement of a PATCH: the row it answers with is the one in the table then. -/
theorem updateMedia_reply (id : Uuid) {changes : GameMediaUpdate} {n : Int}
    (h : changes.sortOrder = some n) :
    match s.updateMedia env id changes with
    | (.ok (some media), s') => media.sortOrder = n ∧ s'.media.find? id = some media
    | (.ok none, _) => s.media.find? id = none
    | (.error _, s') => s' = s := by
  unfold State.updateMedia
  split_ifs with htexts
  · rfl
  · cases hrow : s.media.find? id with
    | none => rfl
    | some row =>
        refine ⟨by simp [GameMedia.apply, h], ?_⟩
        rw [Table.find?_modify_self, hrow]
        rfl

/-- The outcome of a PATCH from the state: nothing has changed, or the row has the order. -/
def Took (n : Int) (outcome : Except Failure GameMedia) (s' : Storefront.State) : Prop :=
  match outcome with
  | .ok media => media.sortOrder = n ∧ s'.media.find? (uuidOf mediaId) = some media
  | .error _ => s' = s

/-- What a PATCH does when it changes the order. -/
theorem updateMedia_wp {changes : GameMediaUpdate} {n : Int} (h : changes.sortOrder = some n) :
    (Media.update actor mediaId changes).Wp (Storefront.exec env) (Took s mediaId n) s := by
  unfold Media.update
  rw [Program.wp_bind]
  refine editableMedia_wp ?_
  cases hmedia : s.editableMedia actor mediaId with
  | error e => rfl
  | ok media =>
      -- an order is a change, so the statement is sent
      have hempty : ¬changes.empty = true := by simp [GameMediaUpdate.empty, h]
      dsimp only
      rw [if_neg hempty, Program.wp_bind]
      cases changes.altText.forM validateAltText with
      | error e => rfl
      | ok checked =>
          intro choice
          have hreply := updateMedia_reply env s (uuidOf mediaId) h
          show Program.Wp _ _
            (Program.ofExcept (s.updateMedia env (uuidOf mediaId) changes).1 >>= _)
            (s.updateMedia env (uuidOf mediaId) changes).2
          cases hstatement : s.updateMedia env (uuidOf mediaId) changes with
          | mk reply s' =>
              rw [hstatement] at hreply
              cases reply with
              | error e => exact hreply
              | ok found =>
                  cases found with
                  | some updated => exact hreply
                  -- the row was there when the picture was looked up
                  | none =>
                      have hgone : s.media.find? (uuidOf mediaId) = none := hreply
                      rw [editableMedia_find hmedia] at hgone
                      cases hgone

/-- The same among the other tasks, which change tables between two calls. -/
theorem updateMedia_confined {changes : GameMediaUpdate} {n : Int}
    (h : changes.sortOrder = some n) :
    Confined env actor (fun outcome s' => ∀ media, outcome = .ok media →
      media.sortOrder = n ∧ s'.media.find? (uuidOf mediaId) = some media)
      (Media.update actor mediaId changes) s := by
  have hempty : ¬changes.empty = true := by simp [GameMediaUpdate.empty, h]
  refine Program.safe_bind (editableMedia_confined (fun s' existing hrow => ?_)
    (fun _ _ media hmedia => nomatch hmedia))
  show Confined env actor _ (if changes.empty then _ else _) s'
  rw [if_neg hempty]
  cases changes.altText.forM validateAltText with
  | error e => exact fun media hmedia => nomatch hmedia
  | ok checked =>
      refine fun t _ he => ⟨⟨fun _ g row hg hgame => ?_, trivial⟩, fun choice => ?_⟩
      · -- what the row says of its game has not changed since it was looked up
        exact (hrow.evolves he he.media).mayEdit hg hgame
      · have hreply := updateMedia_reply env t (uuidOf mediaId) h
        show Program.Safe _ _ _ _ _ (Program.ofExcept (t.updateMedia env (uuidOf mediaId) changes).1
          >>= _) (t.updateMedia env (uuidOf mediaId) changes).2
        cases hstatement : t.updateMedia env (uuidOf mediaId) changes with
        | mk reply t' =>
            rw [hstatement] at hreply
            cases reply with
            | error e => exact fun media hmedia => nomatch hmedia
            | ok found =>
                cases found with
                | none => exact fun media hmedia => nomatch hmedia
                | some updated => exact fun media hmedia => Except.ok.inj hmedia ▸ hreply

/-- A row that was stored has the order of the command. -/
theorem createMedia_sortOrder {choice : Launcher.Choice} {media : NewGameMedia}
    {created : StoredMedia} (h : (s.createMedia env choice media).1 = .ok created) :
    created.media.sortOrder = media.sortOrder := by
  unfold State.createMedia at h
  split at h
  · cases h
  · cases hold : s.replacedMedia media with
    | some old =>
        -- a picture that is replaced gives its row to the new one
        rw [hold] at h
        cases h
        rfl
    | none =>
        rw [hold] at h
        dsimp only at h
        split at h
        · cases h
        · split at h
          · cases h
          · cases h
            rfl

theorem storeRow_sortOrder (media : NewGameMedia) :
    (storeRow media).Wp (Storefront.exec env)
      (fun outcome _ => ∀ row, outcome = .ok row → row.sortOrder = media.sortOrder) s := by
  intro choice
  show Program.Wp _ _ (Program.ofExcept (s.createMedia env choice media).1 >>= _)
    (s.createMedia env choice media).2
  have horder := @createMedia_sortOrder env s choice media
  cases hcreated : s.createMedia env choice media with
  | mk reply t =>
      rw [hcreated] at horder
      cases reply with
      | error e => exact fun row hrow => nomatch hrow
      | ok created =>
          -- reclaiming the file of the old picture does not touch the answer
          show Program.Wp _ _ (reclaim created.replacedStorageKey >>= _) t
          refine Program.wp_bind.mpr (reclaim_wp _ (fun _ row hrow => ?_))
          obtain rfl := Except.ok.inj hrow
          exact horder rfl

/-- The upload answers with the order of its command. -/
theorem uploadMedia_wp (gameId : Bytes) (command : Media.UploadMediaCommand) :
    (Media.upload env actor gameId command).Wp (Storefront.exec env)
      (fun outcome _ => ∀ media, outcome = .ok media → media.sortOrder = command.sortOrder) s := by
  unfold Media.upload
  refine Program.wp_bind.mpr (editableGame_wp ?_)
  cases s.editable env actor gameId with
  | error e => exact fun media hmedia => nomatch hmedia
  | ok game =>
      dsimp only
      rw [Program.wp_bind]
      cases Media.checkUpload env.media command with
      | error e => exact fun media hmedia => nomatch hmedia
      | ok format =>
          refine Program.wp_bind.mpr (checkGallery_wp ?_)
          cases s.galleryFor game.id command.kind with
          | error e => exact fun media hmedia => nomatch hmedia
          | ok room =>
              intro choice
              show Program.Wp _ _ (require (s.storeMedia env choice.fault command.bytes format).1
                >>= _) (s.storeMedia env choice.fault command.bytes format).2
              cases s.storeMedia env choice.fault command.bytes format with
              | mk reply t =>
                  cases reply with
                  | error e => exact fun media hmedia => nomatch hmedia
                  | ok storageKey =>
                      exact storeRow_sortOrder env t
                        (Media.mediaRow game.id command format storageKey)

end Update

namespace MediaController

section Update

variable (env : Storefront.Env) (s : Storefront.State) (actor : Actor) (mediaId : Bytes)
  {body : Json} {n : Int}

/-- A PATCH, run alone: it is refused and nothing has changed, or the row has the order `n`. -/
def StoresExactly (body : Json) (n : Int) : Prop :=
  ∃ program, update actor mediaId (some body) = .ok program ∧
    program.Wp (Storefront.exec env) (Took s mediaId n) s

theorem update_eq (h : Asks body n) : update actor mediaId (some body) = .ok
    (Media.update actor mediaId { altText := altTextOf body, sortOrder := some (narrow n) }) := by
  have hbody : requireJsonObject (some body) = .ok body := by
    simp [requireJsonObject, h.object]
  unfold update
  rw [hbody]
  dsimp only
  rw [changesOf_eq h]
  rfl

/-- What is refused does not depend on the order. -/
theorem storesExactly_iff (h : Asks body n) : StoresExactly env s actor mediaId body n ↔
    ¬UpdateMediaPasses env s actor mediaId { altText := altTextOf body, sortOrder := some n } ∨
      (-2 ^ 31 ≤ n ∧ n < 2 ^ 31) := by
  have hrefused : UpdateMediaPasses env s actor mediaId
      { altText := altTextOf body, sortOrder := some (narrow n) } ↔
        UpdateMediaPasses env s actor mediaId
          { altText := altTextOf body, sortOrder := some n } := by
    simp [UpdateMediaPasses, GameMediaUpdate.empty]
  have hstored : (Media.update actor mediaId
      { altText := altTextOf body, sortOrder := some (narrow n) }).Wp (Storefront.exec env)
        (Took s mediaId (narrow n)) s := updateMedia_wp env s actor mediaId rfl
  unfold StoresExactly
  rw [update_eq actor mediaId h, ← narrow_eq_self_iff, ← hrefused, ← updateMedia_fails_iff]
  constructor
  · rintro ⟨program, hprogram, hexact⟩
    obtain rfl := Except.ok.inj hprogram
    refine or_iff_not_imp_right.mpr (fun hne => (hstored.and hexact).mono ?_)
    -- one row cannot have both orders, so there was none
    rintro outcome s' ⟨hnarrowed, hsent⟩
    cases outcome with
    | ok media => exact absurd (hnarrowed.1.symm.trans hsent.1) hne
    | error e => exact ⟨⟨e, rfl⟩, hsent⟩
  · rintro (hfails | heq)
    · refine ⟨_, rfl, hfails.mono ?_⟩
      rintro outcome s' ⟨⟨e, rfl⟩, hsame⟩
      exact hsame
    · rw [heq] at hstored ⊢
      exact ⟨_, rfl, hstored⟩

end Update

end MediaController

namespace MediaController

/-- The order that the parameters of an upload are for. -/
def Sent (request : Parameters) (n : Int) : Prop :=
  if (request (ascii "sortOrder")).isEmpty then n = 0
  else ClientAddress.parseNumber (request (ascii "sortOrder")) = some n

theorem commandOf_sent {request : Parameters} {picture : Bytes}
    {command : Media.UploadMediaCommand} (h : commandOf request picture = .ok command) :
    Sent request command.sortOrder := by
  obtain ⟨kind, -, hrest⟩ := bind_ok h
  obtain ⟨sortOrder, hsort, hcommand⟩ := bind_ok hrest
  obtain rfl := Except.ok.inj hcommand
  unfold optionalSortOrder at hsort
  unfold Sent
  dsimp only at hsort ⊢
  split_ifs at hsort ⊢ with hempty
  · exact (Except.ok.inj hsort).symm
  · cases hnumber : ClientAddress.parseNumber (request (ascii "sortOrder")) with
    | none =>
        rw [hnumber] at hsort
        cases hsort
    | some value =>
        rw [hnumber] at hsort
        exact congrArg some (Except.ok.inj hsort)

theorem upload_wp (env : Storefront.Env) (s : Storefront.State) (actor : Actor)
    (idOrSlug : Bytes) (request : Parameters) (picture : Bytes) :
    (upload env actor idOrSlug request picture).Wp (Storefront.exec env)
      (fun outcome _ => ∀ media, outcome = .ok media → Sent request media.sortOrder) s := by
  unfold upload
  cases hcommand : commandOf request picture with
  | error e => exact fun media hmedia => nomatch hmedia
  | ok command =>
      have hstored := uploadMedia_wp env s actor idOrSlug command
      refine hstored.mono (fun outcome s' horder media hmedia => ?_)
      rw [horder media hmedia]
      exact commandOf_sent hcommand

end MediaController

/-- **Which numbers are taken exactly.** -/
theorem integers_exact_iff (env : Storefront.Env) (s : Storefront.State) (actor : Actor)
    (mediaId : Bytes) (request : Parameters) {body : Json} {n : Int}
    (h : MediaController.Asks body n) :
    ((∀ listing : Listing, listing.Exact request) ∧
        MediaController.StoresExactly env s actor mediaId body n ↔
      (∀ listing : Listing, (pageOf request - 1) * listing.sizeOf request < 2 ^ 31) ∧
        (¬UpdateMediaPasses env s actor mediaId
            { altText := MediaController.altTextOf body, sortOrder := some n } ∨
          (-2 ^ 31 ≤ n ∧ n < 2 ^ 31))) ∧
    -- what follows for the windows
    (∀ (listing : Listing) (request' : Parameters), listing.Exact request → listing.Exact request' →
      listing.Apart request request') ∧
    -- the same among other tasks
    (-2 ^ 31 ≤ n ∧ n < 2 ^ 31 → ∃ program,
      MediaController.update actor mediaId (some body) = .ok program ∧
        Confined env actor (fun outcome s' => ∀ media, outcome = .ok media →
          media.sortOrder = n ∧ s'.media.find? (uuidOf mediaId) = some media) program s) ∧
    -- and the upload
    (∀ idOrSlug picture, (MediaController.upload env actor idOrSlug request picture).Wp
      (Storefront.exec env) (fun outcome _ => ∀ media, outcome = .ok media →
        MediaController.Sent request media.sortOrder) s) := by
  refine ⟨?_, fun listing request' hexact hexact' => hexact.apart hexact', fun hrange => ?_,
    fun idOrSlug picture => MediaController.upload_wp env s actor idOrSlug request picture⟩
  · rw [MediaController.storesExactly_iff env s actor mediaId h]
    exact and_congr_left' (forall_congr' (fun listing => listing.exact_iff request))
  · have heq := (narrow_eq_self_iff n).mpr hrange
    refine ⟨_, MediaController.update_eq actor mediaId h, ?_⟩
    rw [heq]
    exact updateMedia_confined env s actor mediaId rfl

section Demo

open Launcher.Demo (alice)

/-- Alice has posted a film to her game. -/
def posted : Storefront.State := ((storefront Storefront.Demo.filmEnv).run Storefront.Demo.opened
  (Storefront.Demo.published ++ Storefront.Demo.posted :: Storefront.Demo.drawing 21 1 4)).shared

/-- The parameters of a request for a page of a hundred. -/
def pageOfHundred (page : Bytes) : Parameters := fun name =>
  if name = ascii "page" then page else if name = ascii "pageSize" then ascii "100" else []

def ordering (n : Int) : Json := .object [(ascii "sortOrder", .number n)]

theorem asks_ordering {n : Int} (h : -2 ^ 63 ≤ n ∧ n < 2 ^ 63) :
    MediaController.Asks (ordering n) n where
  object := rfl
  value := by simp [ordering, JsonValue.member]
  int64 := h

/-- The third page, and the film put seventh. -/
theorem integers_exact_seventh :
    (∀ listing : Listing, listing.Exact (pageOfHundred (ascii "3"))) ∧
      MediaController.StoresExactly Storefront.Demo.filmEnv posted alice (uuidText 21)
        (ordering 7) 7 :=
  (integers_exact_iff Storefront.Demo.filmEnv posted alice (uuidText 21) (pageOfHundred (ascii "3"))
    (asks_ordering (by decide))).1.mpr
      ⟨fun listing => by cases listing <;> decide +kernel, Or.inr (by decide)⟩

/-- The last page there can be has an offset that no `int` holds, and an order of 2^32 is not the
one that is stored. -/
theorem largeNumbers_not_taken :
    (∀ listing : Listing, listing.paging (pageOfHundred (ascii "2147483647")) = none) ∧
      MediaController.Asks (ordering (2 ^ 32)) (2 ^ 32) ∧
      ¬MediaController.StoresExactly Storefront.Demo.filmEnv posted alice (uuidText 21)
        (ordering (2 ^ 32)) (2 ^ 32) := by
  have hasks := @asks_ordering (2 ^ 32) (by decide)
  refine ⟨fun listing => by cases listing <;> decide +kernel, hasks, fun hexact => ?_⟩
  have hiff := MediaController.storesExactly_iff Storefront.Demo.filmEnv posted alice (uuidText 21)
    hasks
  rcases hiff.mp hexact with hrefused | hrange
  · have hmedia : (posted.editableMedia alice (uuidText 21)).isOk = true := by decide +kernel
    cases hfound : posted.editableMedia alice (uuidText 21) with
    | error e =>
        rw [hfound] at hmedia
        cases hmedia
    | ok media => exact hrefused ⟨media, hfound, Or.inr ⟨by decide, by decide +kernel⟩⟩
  · exact absurd hrange.2 (by decide)

end Demo

end Launcher.Controllers
