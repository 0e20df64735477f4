import NiffyInsure.Lib.JsString
import NiffyInsure.Lib.Paging
import Mathlib.Data.List.Sort

/-!
# Keyset pagination

`helpers/pagination.ts`: rows are listed by `createdAt` and `id`, the newest first, and the cursor
of the next page is the pair of the last row as base64url of JSON, with an HMAC behind a dot if
there is a secret.  `paginate` pages through a list in memory, with cursors that are offsets.

Dates, JSON, base64url, the HMAC and the conversion of numbers are of the platform (`Platform`), and
what is relied on is `Platform.Lawful`.

* `decodeCursor_encodeCursor`: a cursor reads as what it was written for.
* `decodeCursor_forged`: with a secret, another tag is refused.
* `keyset_splits`, `paginate_splits`: a page and what its cursor leaves.
* `pagination_complete`: both ways of paging enumerate everything once, in order.
-/

namespace NiffyInsure.Backend.Keyset

open Paging

/-! ## The platform -/

def MAX_SAFE_INTEGER : Nat := 9007199254740991

/-- A date, in milliseconds, is in the range of `Date`. -/
def IsTime (t : Int) : Prop := -8640000000000000 ≤ t ∧ t ≤ 8640000000000000

instance (t : Int) : Decidable (IsTime t) := inferInstanceAs (Decidable (_ ∧ _))

structure CursorPayload where
  createdAt : Js.Text
  id : Nat
  deriving DecidableEq

/-- A field of a parsed object: a string, a number that is an integer, or anything else. -/
inductive Field where
  | string (text : Js.Text)
  | integer (n : Int)
  | other
  deriving DecidableEq

/-- What `JSON.parse` gives: an object, of which two fields are looked at, or anything else. -/
inductive Parsed where
  | object (createdAt id : Field)
  | other
  deriving DecidableEq

/-- What is used of the platform.  `none` stands for `NaN` or, of `parse`, for an exception, and of
`toNumber` for a number that is no integer as well. -/
structure Platform where
  toISOString : Int → Js.Text
  dateParse : Js.Text → Option Int
  stringify : CursorPayload → Js.Text
  parse : Js.Text → Option Parsed
  toBase64url : Js.Text → Js.Text
  ofBase64url : Js.Text → Js.Text
  hmac : Js.Text → Js.Text → Js.Text
  ofNumber : Nat → Js.Text
  toNumber : Js.Text → Option Int

/-- What is written can be read back, the empty text reads as nothing, and the text of an HMAC is
not empty and has no dot. -/
structure Platform.Lawful (p : Platform) : Prop where
  date : ∀ t, IsTime t → p.dateParse (p.toISOString t) = some t
  json : ∀ payload : CursorPayload, payload.id ≤ MAX_SAFE_INTEGER →
    p.parse (p.stringify payload) = some (.object (.string payload.createdAt) (.integer payload.id))
  number : ∀ n, n ≤ MAX_SAFE_INTEGER → p.toNumber (p.ofNumber n) = some (n : Int)
  base64Json : ∀ t id, IsTime t → id ≤ MAX_SAFE_INTEGER →
    p.ofBase64url (p.toBase64url (p.stringify ⟨p.toISOString t, id⟩)) =
      p.stringify ⟨p.toISOString t, id⟩
  base64Number : ∀ n, n ≤ MAX_SAFE_INTEGER →
    p.ofBase64url (p.toBase64url (p.ofNumber n)) = p.ofNumber n
  base64Nil : p.ofBase64url [] = []
  parseNil : p.parse [] = none
  numberNil : p.toNumber [] = some 0
  hmacNe : ∀ secret text, p.hmac secret text ≠ []
  hmacDot : ∀ secret text, 0x2E ∉ p.hmac secret text

/-! ## Limits and cursors -/

def DEFAULT_LIMIT : Int := 20

def MAX_LIMIT : Int := 100

/-- `clampLimit`. -/
def clampLimit (requested : Option Int) : Int :=
  min (max 1 (requested.getD DEFAULT_LIMIT)) MAX_LIMIT

/-- What is thrown, by `decodeCursor` or by `paginate`. -/
inductive CursorFault where
  | badRequest (cursor : Js.Text)
  | cursorError (cursor : Js.Text)
  deriving DecidableEq

/-- `Invalid cursor: "..."`. -/
def CursorFault.message : CursorFault → Js.Text
  | badRequest cursor | cursorError cursor =>
    ("Invalid cursor: \"".toList.map fun c => UInt16.ofNat c.toNat) ++ cursor ++ [0x22]

section

variable (p : Platform) (secret : Option Js.Text)

/-- There is a secret: `undefined` and the empty text are none. -/
def signing : Option Js.Text := secret.filter (· ≠ [])

/-- `sign`. -/
def sign (payload : Js.Text) : Js.Text :=
  match signing secret with
  | none => []
  | some key => p.hmac key payload

/-- `encodeCursor`. -/
def encodeCursor (createdAt : Int) (id : Nat) : Js.Text :=
  let payload : CursorPayload := ⟨p.toISOString createdAt, id⟩
  let encoded := p.toBase64url (p.stringify payload)
  let tag := sign p secret encoded
  if tag ≠ [] then encoded ++ 0x2E :: tag else encoded

/-- The part of `decodeCursor` before the parsing: the text without its tag, if that is right. -/
def checkTag (cursor : Js.Text) : Option Js.Text :=
  match signing secret with
  | none => some cursor
  | some _ =>
    match Js.lastIndexOf 0x2E cursor with
    | none => none
    | some dotIndex =>
      let encoded := cursor.take dotIndex
      let providedTag := cursor.drop (dotIndex + 1)
      if providedTag ≠ sign p secret encoded then none else some encoded

/-- The rest of it: the payload, if it has the right shape. -/
def parsePayload (encoded : Js.Text) : Option CursorPayload :=
  match p.parse (p.ofBase64url encoded) with
  | some (.object (.string createdAt) (.integer id)) =>
    if id < 0 ∨ p.dateParse createdAt = none then none else some ⟨createdAt, id.toNat⟩
  | _ => none

/-- `decodeCursor`. -/
def decodeCursor (cursor : Js.Text) : Except CursorFault CursorPayload :=
  match (checkTag p secret cursor).bind (parsePayload p) with
  | some payload => .ok payload
  | none => .error (.badRequest cursor)

end

section

variable {p : Platform} {secret : Option Js.Text}

/-- **A cursor reads as what it was written for**, signed or not. -/
theorem decodeCursor_encodeCursor (hp : p.Lawful) {createdAt : Int} {id : Nat}
    (ht : IsTime createdAt) (hid : id ≤ MAX_SAFE_INTEGER) :
    decodeCursor p secret (encodeCursor p secret createdAt id) =
      .ok ⟨p.toISOString createdAt, id⟩ := by
  have hcheck : checkTag p secret (encodeCursor p secret createdAt id) =
      some (p.toBase64url (p.stringify ⟨p.toISOString createdAt, id⟩)) := by
    unfold checkTag encodeCursor sign
    cases signing secret with
    | none => rfl
    | some key =>
      dsimp only
      rw [if_pos (hp.hmacNe key _), Js.lastIndexOf_append _ (hp.hmacDot key _)]
      dsimp only
      rw [List.take_left, List.drop_append]
      simp
  have hparse : parsePayload p (p.toBase64url (p.stringify ⟨p.toISOString createdAt, id⟩)) =
      some ⟨p.toISOString createdAt, id⟩ := by
    unfold parsePayload
    rw [hp.base64Json _ _ ht hid, hp.json _ hid]
    dsimp only
    rw [hp.date _ ht, if_neg (by simp)]
    rfl
  unfold decodeCursor
  rw [hcheck, Option.bind_some, hparse]

/-- **A tag that is not the HMAC of what stands before it is refused**, and so is a cursor without a
tag. -/
theorem decodeCursor_forged {key : Js.Text} (hkey : key ≠ []) :
    (∀ cursor, 0x2E ∉ cursor → decodeCursor p (some key) cursor = .error (.badRequest cursor)) ∧
    ∀ body tag, 0x2E ∉ tag → tag ≠ p.hmac key body →
      decodeCursor p (some key) (body ++ 0x2E :: tag) =
      .error (.badRequest (body ++ 0x2E :: tag)) := by
  have hsigning : signing (some key) = some key := by
    unfold signing
    rw [Option.filter_some, if_pos (by simpa using hkey)]
  constructor
  · intro cursor hdot
    unfold decodeCursor checkTag
    rw [hsigning, Js.lastIndexOf_of_not_mem hdot]
    rfl
  · intro body tag hdot htag
    unfold decodeCursor checkTag sign
    rw [hsigning, Js.lastIndexOf_append body hdot]
    dsimp only
    have hdrop : (body ++ 0x2E :: tag).drop (body.length + 1) = tag := by simp
    rw [List.take_left, hdrop, if_pos htag]
    rfl

end

/-! ## Pages -/

/-- `CursorPageResult`. -/
structure CursorPageResult (α : Type) where
  data : List α
  nextCursor : Option Js.Text
  total : Nat

/-- What a reader goes on with. -/
def pageOf {α : Type} (fetch : Option Js.Text → Except CursorFault (CursorPageResult α))
    (after : Option Js.Text) : Option (Page α (Option Js.Text)) :=
  (fetch after).toOption.map fun r => ⟨r.data, r.nextCursor.map some⟩

/-- A row with a date and an id. -/
structure Row (δ : Type) where
  createdAt : Int
  id : Nat
  data : δ
  deriving DecidableEq

/-- A table with distinct ids. -/
structure Table (δ : Type) where
  rows : List (Row δ)
  distinct : (rows.map Row.id).Nodup
  times : ∀ r ∈ rows, IsTime r.createdAt
  ids : ∀ r ∈ rows, r.id ≤ MAX_SAFE_INTEGER

/-- `createdAt` is less than a date, or equal to it and the id less than another. -/
structure KeysetWhere where
  createdAt : Int
  id : Nat

section

variable {δ α : Type}

def KeysetWhere.admits (w : KeysetWhere) (r : Row δ) : Bool :=
  decide (r.createdAt < w.createdAt ∨ r.createdAt = w.createdAt ∧ r.id < w.id)

/-- `ORDER BY created_at DESC, id DESC`. -/
def NewestFirst (r r' : Row δ) : Prop :=
  r'.createdAt < r.createdAt ∨ r'.createdAt = r.createdAt ∧ r'.id ≤ r.id

instance : DecidableRel (@NewestFirst δ) := fun _ _ => inferInstanceAs (Decidable (_ ∨ _))

/-- All rows in this order. -/
def Table.ordered (t : Table δ) : List (Row δ) := t.rows.insertionSort NewestFirst

/-- `findMany` with `where`, `orderBy` and `take`. -/
def Table.findMany (t : Table δ) (w : Option KeysetWhere) (take : Nat) : List (Row δ) :=
  ((t.rows.filter fun r => w.all fun w => w.admits r).insertionSort NewestFirst).take take

variable (p : Platform) (secret : Option Js.Text)

/-- `buildKeysetWhere`.  A `createdAt` that is no date was refused by `decodeCursor`. -/
def buildKeysetWhere (after : Option Js.Text) : Except CursorFault (Option KeysetWhere) :=
  match after.filter (· ≠ []) with
  | none => .ok none
  | some cursor => do
    let payload ← decodeCursor p secret cursor
    return some ⟨(p.dateParse payload.createdAt).getD 0, payload.id⟩

/-- `buildNextCursor`. -/
def buildNextCursor (items : List (Row δ)) (limit : Int) (total : Nat) : Option Js.Text :=
  if items.length = 0 ∨ items.length < limit ∨ total ≤ limit then none
  else items.getLast?.map fun last => encodeCursor p secret last.createdAt last.id

/-- A page of a table: the clause of the cursor in the query, and the cursor of the last row. -/
def listPage (t : Table δ) (requested : Option Int) (after : Option Js.Text) :
    Except CursorFault (CursorPageResult (Row δ)) := do
  let limit := clampLimit requested
  let keysetWhere ← buildKeysetWhere p secret after
  let rows := t.findMany keysetWhere limit.toNat
  return ⟨rows, buildNextCursor p secret rows limit t.rows.length, t.rows.length⟩

/-- `paginate`. -/
def paginate (items : List α) (requested : Option Int) (after : Option Js.Text) :
    Except CursorFault (CursorPageResult α) := do
  let limit := clampLimit requested
  let total := items.length
  let startIndex ← match after.filter (· ≠ []) with
    | none => .ok 0
    | some cursor =>
      match p.toNumber (p.ofBase64url cursor) with
      | none => .error (.cursorError cursor)
      | some offset => if offset < 0 then .error (.cursorError cursor) else .ok offset.toNat
  let data := (items.drop startIndex).take limit.toNat
  let nextOffset := startIndex + data.length
  let nextCursor :=
    if data.length = limit ∧ nextOffset < total then some (p.toBase64url (p.ofNumber nextOffset))
    else none
  return ⟨data, nextCursor, total⟩

end

/-! ## The order of the rows -/

section

variable {δ : Type} {t : Table δ}

/-- The key of a row, behind which a reader goes on; before the first page there is none. -/
def Row.key (r : Row δ) : Option (Int × Nat) := some (r.createdAt, r.id)

/-- The second key comes later. -/
def behind : Option (Int × Nat) → Option (Int × Nat) → Bool
  | none, some _ => true
  | some k, some k' => decide (k'.1 < k.1 ∨ k'.1 = k.1 ∧ k'.2 < k.2)
  | _, none => false

theorem behind_irrefl (k : Option (Int × Nat)) : behind k k = false := by
  cases k with
  | none => rfl
  | some k => simp [behind]

theorem behind_trans (a b c : Option (Int × Nat)) (hab : behind a b = true)
    (hbc : behind b c = true) : behind a c = true := by
  cases c with
  | none => cases b <;> cases hbc
  | some c =>
    cases b with
    | none => cases a <;> cases hab
    | some b =>
      cases a with
      | none => rfl
      | some a =>
        simp only [behind, decide_eq_true_eq] at hab hbc ⊢
        omega

instance : IsTrans (Row δ) NewestFirst where
  trans a b c hab hbc := by
    unfold NewestFirst at hab hbc ⊢
    omega

instance : Std.Total (@NewestFirst δ) where
  total a b := by
    unfold NewestFirst
    omega

theorem Table.ordered_perm (t : Table δ) : t.ordered.Perm t.rows := List.perm_insertionSort _ _

theorem behind_of_newestFirst {l : List (Row δ)} (hdistinct : (l.map Row.id).Nodup)
    (hsorted : l.Pairwise NewestFirst) :
    l.Pairwise fun r r' => behind r.key r'.key = true := by
  have hids : l.Pairwise fun r r' => r.id ≠ r'.id := List.pairwise_map.mp hdistinct
  refine (hsorted.and hids).imp ?_
  rintro r r' ⟨hle, hne⟩
  unfold NewestFirst at hle
  simp only [Row.key, behind, decide_eq_true_eq]
  omega

theorem Table.pairwise_ordered (t : Table δ) :
    t.ordered.Pairwise fun r r' => behind r.key r'.key = true :=
  behind_of_newestFirst ((t.ordered_perm.map Row.id).nodup_iff.mpr t.distinct)
    (List.pairwise_insertionSort _ _)

/-- **What the clause of a cursor finds is what comes behind it.** -/
theorem Table.findMany_eq (t : Table δ) (w : Option KeysetWhere) (take : Nat) :
    t.findMany w take =
      (seek Row.key behind t.ordered (w.map fun w => (w.createdAt, w.id))).take take := by
  have hadmits : ∀ r : Row δ, (w.all fun w => w.admits r) =
      behind (w.map fun w => (w.createdAt, w.id)) r.key := by
    intro r
    cases w with
    | none => rfl
    | some w => rfl
  unfold Table.findMany
  congr 1
  -- both are the rows that are found, in order
  refine @List.Perm.eq_of_pairwise _ (fun r r' => behind r.key r'.key = true) _ _ ?_ ?_ ?_ ?_
  · intro a b _ _ hab hba
    have hself := behind_trans _ _ _ hab hba
    rw [behind_irrefl] at hself
    cases hself
  · refine behind_of_newestFirst ?_ (List.pairwise_insertionSort _ _)
    rw [((List.perm_insertionSort _ _).map Row.id).nodup_iff]
    exact t.distinct.sublist (List.filter_sublist.map Row.id)
  · exact t.pairwise_ordered.filter _
  · refine (List.perm_insertionSort _ _).trans ?_
    unfold seek
    simp only [hadmits]
    exact (t.ordered_perm.filter _).symm

end

/-! ## A page and what its cursor leaves -/

section

variable {p : Platform} {secret : Option Js.Text} {δ : Type} {t : Table δ}

theorem clampLimit_pos (requested : Option Int) : 1 ≤ clampLimit requested := by
  unfold clampLimit MAX_LIMIT
  omega

theorem encodeCursor_ne_nil (hp : p.Lawful) {createdAt : Int} {id : Nat}
    (ht : IsTime createdAt) (hid : id ≤ MAX_SAFE_INTEGER) :
    encodeCursor p secret createdAt id ≠ [] := by
  have hencoded : p.toBase64url (p.stringify ⟨p.toISOString createdAt, id⟩) ≠ [] := by
    intro hnil
    have hjson := hp.base64Json createdAt id ht hid
    rw [hnil, hp.base64Nil] at hjson
    have hparse := hp.json ⟨p.toISOString createdAt, id⟩ hid
    rw [← hjson, hp.parseNil] at hparse
    cases hparse
  unfold encodeCursor
  dsimp only
  split
  · simp
  · exact hencoded

theorem buildKeysetWhere_encodeCursor (hp : p.Lawful) {createdAt : Int} {id : Nat}
    (ht : IsTime createdAt) (hid : id ≤ MAX_SAFE_INTEGER) :
    buildKeysetWhere p secret (some (encodeCursor p secret createdAt id)) =
      .ok (some ⟨createdAt, id⟩) := by
  have hfilter : (some (encodeCursor p secret createdAt id)).filter (· ≠ []) =
      some (encodeCursor p secret createdAt id) := by
    rw [Option.filter_some, if_pos (by simpa using encodeCursor_ne_nil hp ht hid)]
  unfold buildKeysetWhere
  rw [hfilter]
  dsimp only
  rw [decodeCursor_encodeCursor hp ht hid]
  show Except.ok (some (KeysetWhere.mk ((p.dateParse (p.toISOString createdAt)).getD 0) id)) = _
  rw [hp.date _ ht]
  rfl

/-- There is no cursor yet, or it is a row's. -/
def Table.Good (t : Table δ) (p : Platform) (secret : Option Js.Text)
    (after : Option Js.Text) : Prop :=
  after = none ∨ ∃ r ∈ t.rows, after = some (encodeCursor p secret r.createdAt r.id)

/-- Where a cursor stands. -/
def place (p : Platform) (secret : Option Js.Text) (after : Option Js.Text) : Option (Int × Nat) :=
  match buildKeysetWhere p secret after with
  | .ok w => w.map fun w => (w.createdAt, w.id)
  | .error _ => none

/-- What a cursor leaves to be listed. -/
def Table.rest (t : Table δ) (p : Platform) (secret : Option Js.Text)
    (after : Option Js.Text) : List (Row δ) :=
  seek Row.key behind t.ordered (place p secret after)

theorem Table.rest_none (t : Table δ) : t.rest p secret none = t.ordered := by
  refine List.filter_eq_self.mpr fun r _ => ?_
  rfl

theorem place_encodeCursor (hp : p.Lawful) {r : Row δ} (hr : r ∈ t.rows) :
    place p secret (some (encodeCursor p secret r.createdAt r.id)) = r.key := by
  unfold place
  rw [buildKeysetWhere_encodeCursor hp (t.times r hr) (t.ids r hr)]
  rfl

theorem listPage_eq (hp : p.Lawful) (requested : Option Int) {after : Option Js.Text}
    (hgood : t.Good p secret after) :
    listPage p secret t requested after =
      .ok ⟨(t.rest p secret after).take (clampLimit requested).toNat,
        buildNextCursor p secret ((t.rest p secret after).take (clampLimit requested).toNat)
          (clampLimit requested) t.rows.length, t.rows.length⟩ := by
  have hwhere : ∃ w, buildKeysetWhere p secret after = .ok w := by
    obtain rfl | ⟨r, hr, rfl⟩ := hgood
    · exact ⟨none, rfl⟩
    · exact ⟨_, buildKeysetWhere_encodeCursor hp (t.times r hr) (t.ids r hr)⟩
  obtain ⟨w, hw⟩ := hwhere
  have hplace : place p secret after = w.map fun w => (w.createdAt, w.id) := by
    unfold place
    rw [hw]
  unfold listPage Table.rest
  rw [hw, hplace, ← t.findMany_eq]
  rfl

/-- **A page is the front of what its cursor leaves, and the next cursor leaves what is behind
it.** -/
theorem keyset_splits (hp : p.Lawful) (secret : Option Js.Text) (t : Table δ)
    (requested : Option Int) :
    Splits (orAgain (pageOf (listPage p secret t requested))) (t.Good p secret)
      (t.rest p secret) := by
  have hfetch : ∀ after, t.Good p secret after →
      orAgain (pageOf (listPage p secret t requested)) after =
        ⟨(t.rest p secret after).take (clampLimit requested).toNat,
          (buildNextCursor p secret ((t.rest p secret after).take (clampLimit requested).toNat)
            (clampLimit requested) t.rows.length).map some⟩ := by
    intro after hgood
    unfold orAgain pageOf
    rw [listPage_eq hp requested hgood]
    rfl
  have hlimit := clampLimit_pos requested
  constructor
  · intro after hgood hnext
    rw [hfetch after hgood] at hnext ⊢
    refine List.take_of_length_le ?_
    have hrest : (t.rest p secret after).length ≤ t.rows.length := by
      rw [← t.ordered_perm.length_eq]
      exact List.length_filter_le _ _
    rw [Option.map_eq_none_iff, buildNextCursor, List.length_take] at hnext
    split at hnext
    case isTrue hlast => omega
    case isFalse hmore =>
      -- there is a last row, so there is a cursor
      rw [Option.map_eq_none_iff, List.getLast?_eq_none_iff] at hnext
      have hlength := congrArg List.length hnext
      rw [List.length_take, List.length_nil] at hlength
      omega
  · intro after after' hgood hnext
    rw [hfetch after hgood] at hnext ⊢
    obtain ⟨cursor, hcursor, rfl⟩ := Option.map_eq_some_iff.mp hnext
    unfold buildNextCursor at hcursor
    split at hcursor
    case isTrue => cases hcursor
    case isFalse hmore =>
      obtain ⟨last, hlast, rfl⟩ := Option.map_eq_some_iff.mp hcursor
      have hmem : last ∈ t.rows := by
        have htake := List.mem_of_getLast? hlast
        have hrest := List.mem_of_mem_take htake
        exact t.ordered_perm.mem_iff.mp (List.mem_filter.mp hrest).1
      refine ⟨.inr ⟨last, hmem, rfl⟩, ?_, ?_⟩
      · intro hnil
        have htake : (t.rest p secret after).take (clampLimit requested).toNat = [] := hnil
        rw [htake] at hlast
        cases hlast
      · have hrest : t.rest p secret (some (encodeCursor p secret last.createdAt last.id)) =
            seek Row.key behind t.ordered last.key := by
          unfold Table.rest
          rw [place_encodeCursor hp hmem]
        rw [hrest]
        exact take_append_seek behind_irrefl behind_trans t.pairwise_ordered hlast

end

/-! ## Offsets -/

section

variable {p : Platform} {α : Type} {items : List α}

/-- The cursor of an offset. -/
def offsetCursor (p : Platform) (n : Nat) : Js.Text := p.toBase64url (p.ofNumber n)

theorem offsetCursor_ne_nil (hp : p.Lawful) {n : Nat} (hpos : 0 < n) (hn : n ≤ MAX_SAFE_INTEGER) :
    offsetCursor p n ≠ [] := by
  intro hnil
  have hback := hp.base64Number n hn
  unfold offsetCursor at hnil
  rw [hnil, hp.base64Nil] at hback
  have hnumber := hp.number n hn
  rw [← hback, hp.numberNil] at hnumber
  have hzero : (0 : Int) = n := Option.some.inj hnumber
  omega

/-- There is no cursor yet, or it is an offset inside the list. -/
def Inside (p : Platform) (items : List α) (after : Option Js.Text) : Prop :=
  after = none ∨ ∃ n, 0 < n ∧ n ≤ items.length ∧ after = some (offsetCursor p n)

/-- The offset of a cursor. -/
def offset (p : Platform) (after : Option Js.Text) : Nat :=
  match after.filter (· ≠ []) with
  | none => 0
  | some cursor => ((p.toNumber (p.ofBase64url cursor)).getD 0).toNat

theorem offset_offsetCursor (hp : p.Lawful) {n : Nat} (hpos : 0 < n) (hn : n ≤ MAX_SAFE_INTEGER) :
    offset p (some (offsetCursor p n)) = n := by
  unfold offset
  rw [Option.filter_some, if_pos (by simpa using offsetCursor_ne_nil hp hpos hn)]
  dsimp only
  rw [offsetCursor, hp.base64Number n hn, hp.number n hn]
  rfl

theorem paginate_eq (hp : p.Lawful) (hitems : items.length ≤ MAX_SAFE_INTEGER)
    (requested : Option Int) {after : Option Js.Text} (hgood : Inside p items after) :
    paginate p items requested after =
      let data := (items.drop (offset p after)).take (clampLimit requested).toNat
      .ok ⟨data,
        if data.length = clampLimit requested ∧ offset p after + data.length < items.length then
          some (offsetCursor p (offset p after + data.length)) else none, items.length⟩ := by
  obtain rfl | ⟨n, hpos, hn, rfl⟩ := hgood
  · rfl
  · have hfilter : (some (offsetCursor p n)).filter (· ≠ []) = some (offsetCursor p n) := by
      rw [Option.filter_some,
        if_pos (by simpa using offsetCursor_ne_nil hp hpos (hn.trans hitems))]
    have hnumber : p.toNumber (p.ofBase64url (offsetCursor p n)) = some (n : Int) := by
      rw [offsetCursor, hp.base64Number n (hn.trans hitems), hp.number n (hn.trans hitems)]
    rw [offset_offsetCursor hp hpos (hn.trans hitems)]
    unfold paginate
    rw [hfilter]
    dsimp only
    rw [hnumber]
    dsimp only
    rw [if_neg (by omega)]
    rfl

theorem paginate_splits (hp : p.Lawful) (hitems : items.length ≤ MAX_SAFE_INTEGER)
    (requested : Option Int) :
    Splits (orAgain (pageOf (paginate p items requested))) (Inside p items)
      (fun after => items.drop (offset p after)) := by
  have hfetch : ∀ after, Inside p items after →
      orAgain (pageOf (paginate p items requested)) after =
        let data := (items.drop (offset p after)).take (clampLimit requested).toNat
        ⟨data, (if data.length = clampLimit requested ∧
            offset p after + data.length < items.length then
          some (offsetCursor p (offset p after + data.length)) else none).map some⟩ := by
    intro after hgood
    unfold orAgain pageOf
    rw [paginate_eq hp hitems requested hgood]
    rfl
  have hlimit := clampLimit_pos requested
  constructor
  · intro after hgood hnext
    rw [hfetch after hgood] at hnext ⊢
    refine List.take_of_length_le ?_
    dsimp only at hnext
    rw [List.length_take, List.length_drop] at hnext
    rw [List.length_drop]
    split at hnext
    case isTrue => cases hnext
    case isFalse hlast => omega
  · intro after after' hgood hnext
    rw [hfetch after hgood] at hnext ⊢
    dsimp only at hnext ⊢
    split at hnext
    case isFalse => cases hnext
    case isTrue hmore =>
      obtain ⟨hfull, hinside⟩ := hmore
      generalize hdata : (items.drop (offset p after)).take (clampLimit requested).toNat = data
        at hnext hfull hinside ⊢
      obtain rfl : some (offsetCursor p (offset p after + data.length)) = after' :=
        Option.some.inj hnext
      have hpos : 0 < offset p after + data.length := by omega
      refine ⟨.inr ⟨_, hpos, hinside.le, rfl⟩, ?_, ?_⟩
      · intro hnil
        rw [hnil, List.length_nil] at hfull
        omega
      · have hsize : data.length = (clampLimit requested).toNat := by omega
        rw [offset_offsetCursor hp hpos (hinside.le.trans hitems), hsize, ← List.drop_drop, ← hdata]
        exact List.take_append_drop _ _

end

/-- **Paging enumerates everything once and in order**: the rows of a table, the newest first and of
one date the greatest id first, and the items of a list.  A cursor reads as what it was written for,
and with a secret one whose tag is not the HMAC of its body is refused. -/
theorem pagination_complete {p : Platform} (hp : p.Lawful) :
    (∀ (δ : Type) (t : Table δ) (secret : Option Js.Text) (requested : Option Int),
      t.ordered.Perm t.rows ∧
      (t.ordered.Pairwise fun r r' =>
        r'.createdAt < r.createdAt ∨ r'.createdAt = r.createdAt ∧ r'.id < r.id) ∧
      Reads (orAgain (pageOf (listPage p secret t requested))) none t.ordered) ∧
    (∀ (secret : Option Js.Text) (createdAt : Int) (id : Nat), IsTime createdAt →
      id ≤ MAX_SAFE_INTEGER →
      ∃ payload, decodeCursor p secret (encodeCursor p secret createdAt id) = .ok payload ∧
        p.dateParse payload.createdAt = some createdAt ∧ payload.id = id) ∧
    (∀ key : Js.Text, key ≠ [] →
      (∀ cursor, 0x2E ∉ cursor → decodeCursor p (some key) cursor = .error (.badRequest cursor)) ∧
      ∀ body tag, 0x2E ∉ tag → tag ≠ p.hmac key body →
        decodeCursor p (some key) (body ++ 0x2E :: tag) =
          .error (.badRequest (body ++ 0x2E :: tag))) ∧
    ∀ (α : Type) (items : List α) (requested : Option Int), items.length ≤ MAX_SAFE_INTEGER →
      Reads (orAgain (pageOf (paginate p items requested))) none items := by
  refine ⟨fun δ t secret requested => ⟨t.ordered_perm, ?_, ?_⟩, ?_, ?_, ?_⟩
  · refine t.pairwise_ordered.imp fun h => ?_
    simpa [Row.key, behind] using h
  · have hreads := (keyset_splits hp secret t requested).reads (.inl rfl)
    rw [t.rest_none] at hreads
    exact hreads
  · intro secret createdAt id ht hid
    exact ⟨_, decodeCursor_encodeCursor hp ht hid, hp.date _ ht, rfl⟩
  · intro key hkey
    exact decodeCursor_forged hkey
  · intro α items requested hitems
    exact (paginate_splits hp hitems requested).reads (.inl rfl)

/-! ## Three rows of one date -/

/-- Code units of a text. -/
def text (s : String) : Js.Text := s.toList.map fun c => UInt16.ofNat c.toNat

def demoDate : Js.Text := text "1970-01-01T00:00:00.001Z"

def demoJson : Js.Text := text "\x7b\"createdAt\":\"1970-01-01T00:00:00.001Z\",\"id\":2\x7d"

def demoBase64 : Js.Text := text "eyJjcmVhdGVkQXQiOiIxOTcwLTAxLTAxVDAwOjAwOjAwLjAwMVoiLCJpZCI6Mn0"

def demoTag : Js.Text := text "_gmbBGe5pe7qAxgNjfrYj_Y2JavzZxeKykTcbEWdlGA"

/-- What the platform gives for the cursor behind the second of three rows; of anything else it
writes marked copies. -/
def demoPlatform : Platform where
  toISOString t :=
    if t = 1 then demoDate
    else if 0 ≤ t then 0x2B :: List.replicate t.natAbs 0x30
    else 0x2D :: List.replicate t.natAbs 0x30
  dateParse s :=
    if s = demoDate then some 1
    else if s.head? = some 0x2B then some (s.tail.length : Int)
    else if s.head? = some 0x2D then some (-(s.tail.length : Int))
    else none
  stringify payload :=
    if payload = ⟨demoDate, 2⟩ then demoJson
    else List.replicate payload.id 0x7E ++ 0x2E :: payload.createdAt
  parse s :=
    if s = demoJson then some (.object (.string demoDate) (.integer 2))
    else if s = [] then none
    else
      let id := (s.takeWhile (· = 0x7E)).length
      some (.object (.string (s.drop (id + 1))) (.integer id))
  toBase64url s :=
    if s = demoJson then demoBase64 else if s = [0x32] then text "Mg" else 0x7E :: s
  ofBase64url s :=
    if s = demoBase64 then demoJson else if s = text "Mg" then [0x32] else s.tail
  hmac key encoded := if key = text "k" ∧ encoded = demoBase64 then demoTag else [0x7E]
  ofNumber n := if n < 10 then [UInt16.ofNat (0x30 + n)] else List.replicate n 0x7E
  toNumber s :=
    if s.length = 1 then s.head?.map fun c => (c.toNat : Int) - 0x30 else some (s.length : Int)

theorem cons_ne {c : UInt16} {s t : Js.Text} (h : t.head? ≠ some c) : c :: s ≠ t := by
  rintro rfl
  exact h rfl

theorem demoPlatform_base64 (s : Js.Text) :
    demoPlatform.ofBase64url (demoPlatform.toBase64url s) = s := by
  dsimp only [demoPlatform]
  by_cases hjson : s = demoJson
  · rw [if_pos hjson, if_pos rfl, hjson]
  · by_cases htwo : s = [0x32]
    · rw [if_neg hjson, if_pos htwo, if_neg (by decide), if_pos rfl, htwo]
    · have hne : 0x7E :: s ≠ demoBase64 := cons_ne (by decide)
      have hne' : 0x7E :: s ≠ text "Mg" := cons_ne (by decide)
      rw [if_neg hjson, if_neg htwo, if_neg hne, if_neg hne', List.tail_cons]

theorem demoPlatform_lawful : demoPlatform.Lawful where
  date t _ := by
    dsimp only [demoPlatform]
    by_cases ht : t = 1
    · rw [if_pos ht, if_pos rfl, ht]
    · rw [if_neg ht]
      split
      case isTrue hpos =>
        have hne : 0x2B :: List.replicate t.natAbs 0x30 ≠ demoDate := cons_ne (by decide)
        rw [if_neg hne, List.head?_cons, if_pos rfl, List.tail_cons, List.length_replicate]
        congr 1
        omega
      case isFalse hneg =>
        have hne : 0x2D :: List.replicate t.natAbs 0x30 ≠ demoDate := cons_ne (by decide)
        rw [if_neg hne, List.head?_cons, if_neg (by decide), if_pos rfl, List.tail_cons,
          List.length_replicate]
        congr 1
        omega
  json payload _ := by
    dsimp only [demoPlatform]
    by_cases hpayload : payload = ⟨demoDate, 2⟩
    · rw [if_pos hpayload, if_pos rfl, hpayload]
      rfl
    · have hne : List.replicate payload.id 0x7E ++ 0x2E :: payload.createdAt ≠ demoJson := by
        cases payload.id with
        | zero => exact cons_ne (by decide)
        | succ n => exact cons_ne (by decide)
      have hwhile : (List.replicate payload.id 0x7E ++ 0x2E :: payload.createdAt).takeWhile
          (· = 0x7E) = List.replicate payload.id 0x7E := by
        rw [List.takeWhile_append_of_pos (by simp), List.takeWhile_cons_of_neg (by decide),
          List.append_nil]
      rw [if_neg hpayload, if_neg hne, if_neg (by simp), hwhile, List.length_replicate,
        List.drop_append]
      simp
  number n _ := by
    dsimp only [demoPlatform]
    by_cases hn : n < 10
    · have hdigit : (UInt16.ofNat (0x30 + n)).toNat = 0x30 + n :=
        UInt16.toNat_ofNat_of_lt' (by
          show 0x30 + n < 65536
          omega)
      rw [if_pos hn, List.length_singleton, if_pos rfl, List.head?_cons, Option.map_some, hdigit]
      congr 1
      omega
    · rw [if_neg hn, List.length_replicate, if_neg (by omega)]
  base64Json _ _ _ _ := demoPlatform_base64 _
  base64Number _ _ := demoPlatform_base64 _
  base64Nil := by decide
  parseNil := by decide
  numberNil := by decide
  hmacNe key encoded := by
    dsimp only [demoPlatform]
    split <;> decide
  hmacDot key encoded := by
    dsimp only [demoPlatform]
    split <;> decide

def threeRows : Table Unit where
  rows := [⟨1, 1, ()⟩, ⟨1, 3, ()⟩, ⟨1, 2, ()⟩]
  distinct := by decide
  times := by decide
  ids := by decide

/-- The first page ends inside the group of one date; a cursor with another tag is refused. -/
theorem pagination_of_three :
    Reads (orAgain (pageOf (listPage demoPlatform (some (text "k")) threeRows (some 2)))) none
      [⟨1, 3, ()⟩, ⟨1, 2, ()⟩, ⟨1, 1, ()⟩] ∧
    decodeCursor demoPlatform (some (text "k")) (demoBase64 ++ 0x2E :: text "forged") =
      .error (.badRequest (demoBase64 ++ 0x2E :: text "forged")) ∧
    Reads (orAgain (pageOf (paginate demoPlatform [7, 8, 9] (some 2)))) none [7, 8, 9] := by
  obtain ⟨htables, -, hforged, hlists⟩ := pagination_complete demoPlatform_lawful
  have hordered : threeRows.ordered = [⟨1, 3, ()⟩, ⟨1, 2, ()⟩, ⟨1, 1, ()⟩] := by decide
  refine ⟨?_, ?_, ?_⟩
  · rw [← hordered]
    exact (htables Unit threeRows (some (text "k")) (some 2)).2.2
  · exact (hforged (text "k") (by decide)).2 demoBase64 (text "forged") (by decide) (by decide)
  · exact hlists Nat [7, 8, 9] (some 2) (by decide)

end NiffyInsure.Backend.Keyset
