import EcwidDownloader.Proofs.ResponseFinal

/-!
# How a response is cut makes no difference

An element of a response is the callback that would deliver it whole; the library
delivers it in one piece or in several. The strings of the parser grow by any
pieces to the same text, so the pieces of an element do together what the whole
does. Two things are left that tell the cuts apart, the chunks of the body and
the text of an error, which has only the first piece of the status.

An error can come in the middle of an element. Whether a piece of it was
delivered before depends on the cut, but the parse has failed either way.
-/

namespace EcwidDownloader.Http

open Lib ResponseParser

/-- The callbacks that deliver an element. -/
inductive Pieces : HttpCallback → List HttpCallback → Prop
  | status (code : Nat) {pieces : List Bytes} : pieces ≠ [] →
      Pieces (.status code pieces.flatten) (pieces.map (.status code))
  | field {pieces : List Bytes} : pieces ≠ [] →
      Pieces (.headerField pieces.flatten) (pieces.map .headerField)
  | value {pieces : List Bytes} : pieces ≠ [] →
      Pieces (.headerValue pieces.flatten) (pieces.map .headerValue)
  | body {pieces : List Bytes} : pieces ≠ [] →
      Pieces (.body pieces.flatten) (pieces.map .body)
  | headersComplete (contentLength : Nat) :
      Pieces (.headersComplete contentLength) [.headersComplete contentLength]
  | messageComplete : Pieces .messageComplete [.messageComplete]

/-- The callbacks that deliver the elements of a response one after the other. -/
inductive Delivery : List HttpCallback → List HttpCallback → Prop
  | nil : Delivery [] []
  | cons {element : HttpCallback} {elements cbs rest : List HttpCallback} :
      Pieces element cbs → Delivery elements rest →
      Delivery (element :: elements) (cbs ++ rest)

/-- What no cut changes: all but the chunks of the body and the text of an
error. -/
def core (p : ResponseParser) : ResponseParser :=
  { p with result.errStr := "", data := [p.data.flatten] }

theorem core_errno {p q : ResponseParser} (h : core p = core q) :
    p.errno = q.errno := by
  have herrno : (core p).errno = (core q).errno := by rw [h]
  exact herrno

theorem flushLast_core (p : ResponseParser) :
    flushLast (core p) = core (flushLast p) := by
  unfold flushLast core
  simp only []
  split <;> rfl

/-- A callback does the same with what no cut changes. -/
theorem core_callback (cb : HttpCallback) (p : ResponseParser) :
    core ((core p).callback cb) = core (p.callback cb) := by
  cases cb with
  | status code data =>
      simp only [callback, onStatus]
      split <;> simp [core, stop]
  | headerField data =>
      simp only [callback, onHeaderField]
      cases h : p.modeHeader <;> simp [core, h, flush]
  | headerValue data =>
      simp only [callback, onHeaderValue]
      cases h : p.modeHeader <;> simp [core, h]
  | headersComplete contentLength =>
      simp only [callback, onHeadersComplete, flushLast_core]
      generalize flushLast p = q
      cases hr : q.redirect with
      | false => simp [core, hr]
      | true =>
          cases hl : q.headers.lookup "Location" <;>
            simp [core, hr, hl, stop]
  | body data => simp [core, callback, onBody]
  | messageComplete => simp [core, callback, onMessageComplete, stop]

theorem core_callbacks : ∀ (cbs : List HttpCallback) {p q : ResponseParser},
    core p = core q → core (p.callbacks cbs) = core (q.callbacks cbs)
  | [], _, _, h => h
  | cb :: cbs, p, q, h => by
      by_cases hok : p.errno = .ok
      · rw [callbacks_cons cb cbs hok,
          callbacks_cons cb cbs ((core_errno h).symm.trans hok)]
        refine core_callbacks cbs ?_
        rw [← core_callback cb p, h, core_callback cb q]
      · have hq : q.errno ≠ .ok := (core_errno h) ▸ hok
        rw [callbacks_stopped hok, callbacks_stopped hq, h]

/-! ## The pieces of an element -/

/-- Pieces that change nothing. -/
theorem callbacks_idle {make : Bytes → HttpCallback} {p : ResponseParser}
    (h : ∀ piece, p.callback (make piece) = p) (pieces : List Bytes) :
    p.callbacks (pieces.map make) = p := by
  induction pieces with
  | nil => rfl
  | cons piece pieces ih =>
      by_cases hok : p.errno = .ok
      · rw [List.map_cons, callbacks_cons _ _ hok, h, ih]
      · exact callbacks_stopped hok _

/-- The first piece of the status decides. -/
theorem callbacks_status {code : Nat} {pieces : List Bytes}
    {p : ResponseParser} (hok : p.errno = .ok) (hne : pieces ≠ []) :
    core (p.callbacks (pieces.map (.status code))) =
      core (p.callback (.status code pieces.flatten)) := by
  obtain ⟨piece, pieces, rfl⟩ := List.exists_cons_of_ne_nil hne
  rw [List.map_cons, callbacks_cons _ _ hok]
  simp only [callback, onStatus]
  split
  case h_1 | h_2 | h_3 => rw [callbacks_idle fun _ => rfl]
  case h_4 | h_5 | h_6 => rw [callbacks_idle fun _ => rfl]
  case h_7 =>
    have hstopped : (stop .error
        { p with
          result.errStr := toString code ++ " " ++ text piece }).errno ≠ .ok :=
      HttpErrno.noConfusion
    rw [callbacks_stopped hstopped]
    rfl

theorem callbacks_field {pieces : List Bytes} {p : ResponseParser}
    (hok : p.errno = .ok) (hmode : p.modeHeader = .field) :
    p.callbacks (pieces.map .headerField) =
      { p with fieldHeader := p.fieldHeader ++ text pieces.flatten } := by
  induction pieces generalizing p with
  | nil => simp [callbacks, text]
  | cons piece pieces ih =>
      rw [List.map_cons, callbacks_cons _ _ hok]
      have hfirst : p.callback (.headerField piece) =
          { p with fieldHeader := p.fieldHeader ++ text piece } := by
        simp [callback, onHeaderField, hmode]
      rw [hfirst]
      refine (ih (by exact hok) (by exact hmode)).trans ?_
      simp [text_append, String.append_assoc]

theorem callbacks_value {pieces : List Bytes} {p : ResponseParser}
    (hok : p.errno = .ok) (hmode : p.modeHeader = .value) :
    p.callbacks (pieces.map .headerValue) =
      { p with valueHeader := p.valueHeader ++ text pieces.flatten } := by
  induction pieces generalizing p with
  | nil => simp [callbacks, text]
  | cons piece pieces ih =>
      rw [List.map_cons, callbacks_cons _ _ hok]
      have hfirst : p.callback (.headerValue piece) =
          { p with valueHeader := p.valueHeader ++ text piece } := by
        simp [callback, onHeaderValue, hmode]
      rw [hfirst]
      refine (ih (by exact hok) (by exact hmode)).trans ?_
      simp [text_append, String.append_assoc]

theorem callbacks_body {pieces : List Bytes} {p : ResponseParser}
    (hok : p.errno = .ok) :
    p.callbacks (pieces.map .body) = { p with data := p.data ++ pieces } := by
  induction pieces generalizing p with
  | nil => simp [callbacks]
  | cons piece pieces ih =>
      rw [List.map_cons, callbacks_cons _ _ hok]
      have hfirst : p.callback (.body piece) =
          { p with data := p.data ++ [piece] } := rfl
      rw [hfirst]
      refine (ih (by exact hok)).trans ?_
      simp

/-- The pieces of an element do together what the whole does. -/
theorem Pieces.core_eq {element : HttpCallback} {cbs : List HttpCallback}
    {p : ResponseParser} (h : Pieces element cbs) (hok : p.errno = .ok) :
    core (p.callbacks cbs) = core (p.callback element) := by
  cases h with
  | status code hne => exact callbacks_status hok hne
  | @field pieces hne =>
      obtain ⟨piece, pieces, rfl⟩ := List.exists_cons_of_ne_nil hne
      rw [List.map_cons, callbacks_cons _ _ hok, callbacks_field]
      · cases hm : p.modeHeader <;> simp [callback, onHeaderField, hm,
          text_append, String.append_assoc]
      · exact (aside_onHeaderField piece p).errno.trans hok
      · cases hm : p.modeHeader <;> simp [callback, onHeaderField, hm]
  | @value pieces hne =>
      obtain ⟨piece, pieces, rfl⟩ := List.exists_cons_of_ne_nil hne
      rw [List.map_cons, callbacks_cons _ _ hok, callbacks_value]
      · cases hm : p.modeHeader <;> simp [callback, onHeaderValue, hm,
          text_append, String.append_assoc]
      · exact (aside_onHeaderValue piece p).errno.trans hok
      · cases hm : p.modeHeader <;> simp [callback, onHeaderValue, hm]
  | body hne =>
      rw [callbacks_body hok]
      simp [core, callback, onBody]
  | headersComplete | messageComplete =>
      rw [callbacks_cons _ _ hok]
      rfl

/-- A response does what its elements do. -/
theorem Delivery.core_eq {elements cbs : List HttpCallback}
    (h : Delivery elements cbs) :
    ∀ p : ResponseParser, core (p.callbacks cbs) = core (p.callbacks elements) := by
  induction h with
  | nil => exact fun _ => rfl
  | @cons element elements cbs rest hpieces _ ih =>
      intro p
      by_cases hok : p.errno = .ok
      · rw [callbacks_append, callbacks_cons element elements hok, ih]
        exact core_callbacks elements (hpieces.core_eq hok)
      · rw [callbacks_stopped hok, callbacks_stopped hok]

/-! ## What a response comes to -/

/-- What a parse of a response comes to, for those who use the parser. -/
structure Outcome where
  state : ParseState
  redirectUri : String
  contentLength : Nat
  found : Option (List (String × String))
  body : Bytes
  deriving DecidableEq, Repr

def outcome (p : ResponseParser) : Outcome where
  state := p.result.state
  redirectUri := p.result.redirectUri
  contentLength := p.result.contentLength
  found := p.found
  body := p.data.flatten

theorem outcome_core {p q : ResponseParser} (h : core p = core q) :
    outcome p = outcome q := by
  have houtcome (p : ResponseParser) : outcome (core p) = outcome p := by
    simp [outcome, core]
  rw [← houtcome p, h, houtcome q]

/-- What a response comes to by its elements, and by whether an error follows
them. -/
def verdict (elements : List HttpCallback) (failed : Bool) : Outcome :=
  let p := ({} : ResponseParser).callbacks elements
  if failed ∧ p.errno = .ok then { outcome p with state := .error }
  else outcome p

/-- A piece of an element in the middle of which an error can be. -/
def Broken : HttpCallback → Prop
  | .status _ _ | .headerField _ | .headerValue _ => True
  | .headersComplete _ | .body _ | .messageComplete => False

section

variable {L : Type} [HttpParserLibrary L]

/-- The bytes of a response, cut into calls that are not empty and followed by
the end of the stream or not, are delivered as its elements; an error comes after
them all, or in the middle of one more. -/
structure Cut (L : Type) [HttpParserLibrary L] (response : Bytes) (ended : Bool)
    (elements : List HttpCallback) (failed : Bool) (calls : List Bytes) :
    Prop where
  cut : ∃ pieces : List Bytes, (∀ piece ∈ pieces, piece ≠ []) ∧
    pieces.flatten = response ∧ calls = pieces ++ if ended then [[]] else []
  delivered : ∃ cbs broken,
    (trace (HttpParserLibrary.init : L) calls).1 = cbs ++ broken ∧
      Delivery elements cbs ∧ (∀ cb ∈ broken, Broken cb) ∧
      (failed = false → broken = [])
  failed : (trace (HttpParserLibrary.init : L) calls).2.isSome = failed

theorem Aside.outcome_eq {p q : ResponseParser} (h : Aside p q) :
    outcome q = outcome p := by
  simp [outcome, h.result, h.data, h.found]

/-- A piece of a broken element leaves the outcome open, or fails. -/
theorem broken_callback {cb : HttpCallback} (h : Broken cb)
    {p : ResponseParser} (hok : p.errno = .ok) :
    ((p.callback cb).errno = .ok ∧ outcome (p.callback cb) = outcome p) ∨
      Stopped (p.callback cb) ∧
        outcome (p.callback cb) = { outcome p with state := .error } := by
  cases cb with
  | status code data =>
      simp only [callback, onStatus]
      split
      case h_1 | h_2 | h_3 => exact .inl ⟨hok, rfl⟩
      case h_4 | h_5 | h_6 => exact .inl ⟨hok, rfl⟩
      case h_7 => exact .inr ⟨⟨HttpErrno.noConfusion, rfl⟩, rfl⟩
  | headerField data =>
      have haside := aside_onHeaderField data p
      exact .inl ⟨haside.errno.trans hok, haside.outcome_eq⟩
  | headerValue data =>
      have haside := aside_onHeaderValue data p
      exact .inl ⟨haside.errno.trans hok, haside.outcome_eq⟩
  | headersComplete | body | messageComplete => exact h.elim

/-- An error fails the parse, whatever was delivered of a broken element. -/
theorem outcome_broken {description : String} : ∀ {cbs : List HttpCallback}
    {p : ResponseParser}, (∀ cb ∈ cbs, Broken cb) → p.errno = .ok →
    outcome (settle (endWith (some description) (p.callbacks cbs))) =
      { outcome p with state := .error }
  | [], p, _, hok => by
      have hend : endWith (some description) p =
          { p with errno := .failed description } := if_pos hok
      rw [callbacks, hend]
      rfl
  | cb :: cbs, p, h, hok => by
      rw [callbacks_cons cb cbs hok]
      rcases broken_callback (h cb List.mem_cons_self) hok with
        ⟨hok', heq⟩ | ⟨hstopped, heq⟩
      · rw [outcome_broken
          (fun cb' hmem => h cb' (List.mem_cons_of_mem cb hmem)) hok', heq]
      · rw [hstopped.stays, heq]

/-- The outcome is that of the elements. -/
theorem Cut.outcome_eq {response : Bytes} {ended failed : Bool}
    {elements : List HttpCallback} {calls : List Bytes}
    (h : Cut L response ended elements failed calls) :
    outcome (LibraryParser.parse calls : LibraryParser L).toResponseParser =
      verdict elements failed := by
  obtain ⟨cbs, broken, htrace, hdelivery, hbroken, hwhole⟩ := h.delivered
  have hcore := hdelivery.core_eq {}
  have hrunning := Running.callbacks (p := {}) (.inl ⟨rfl, rfl⟩) cbs
  have hfailed := h.failed
  rw [LibraryParser.parse_trace, htrace, callbacks_append]
  generalize ({} : ResponseParser).callbacks cbs = p at hcore hrunning ⊢
  have hverdict : verdict elements failed =
      if failed ∧ p.errno = .ok then { outcome p with state := .error }
      else outcome p := by
    simp only [verdict, core_errno hcore, outcome_core hcore]
  rw [hverdict]
  by_cases hok : p.errno = .ok
  · cases herr : (trace (HttpParserLibrary.init : L) calls).2 with
    | some description =>
        rw [herr] at hfailed
        subst hfailed
        rw [outcome_broken hbroken hok, if_pos ⟨rfl, hok⟩]
    | none =>
        rw [herr] at hfailed
        subst hfailed
        rw [hwhole rfl]
        rw [if_neg (by simp)]
        exact congrArg outcome (settle_ok hok)
  · have hstopped : Stopped p := by
      rcases hrunning with ⟨hok', -⟩ | hpaused
      · exact absurd hok' hok
      · exact ⟨hok, by simp [settle, hpaused]⟩
    rw [hstopped.stays, if_neg (fun hand => hok hand.2)]

end

end EcwidDownloader.Http
