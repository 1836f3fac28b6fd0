import EcwidDownloader.Http.Response

/-!
# The result of a parser is final

A result is written together with the pause that keeps the library from calling
back again, so no callback comes after it; an error of the library comes after no
callback that has paused it. What is left is the order of the callbacks: the
status first, the headers, then the body. A body can then only follow a status
that has neither stopped the parser nor made it wait for a redirect.
-/

namespace EcwidDownloader.Http

open Lib

namespace ResponseParser

theorem callbacks_stopped {p : ResponseParser} (h : p.errno ≠ .ok)
    (cbs : List HttpCallback) : callbacks cbs p = p := by
  cases cbs with
  | nil => rfl
  | cons cb cbs => exact if_neg h

theorem callbacks_cons (cb : HttpCallback) (cbs : List HttpCallback)
    {p : ResponseParser} (h : p.errno = .ok) :
    callbacks (cb :: cbs) p = callbacks cbs (callback cb p) := if_pos h

theorem callbacks_append (pre post : List HttpCallback)
    (p : ResponseParser) :
    callbacks (pre ++ post) p = callbacks post (callbacks pre p) := by
  induction pre generalizing p with
  | nil => rfl
  | cons cb pre ih =>
      by_cases h : p.errno = .ok
      · rw [List.cons_append, callbacks_cons cb _ h, callbacks_cons cb _ h, ih]
      · simp only [callbacks_stopped h]

theorem endWith_stopped {p : ResponseParser} (h : p.errno ≠ .ok)
    (err : Option String) : endWith err p = p := by
  cases err with
  | none => rfl
  | some description => exact if_neg h

/-- Only the error number differs. -/
theorem endWith_result (err : Option String) (p : ResponseParser) :
    (endWith err p).result = p.result ∧ (endWith err p).data = p.data := by
  cases err with
  | none => exact ⟨rfl, rfl⟩
  | some description =>
      unfold endWith
      simp only []
      split <;> exact ⟨rfl, rfl⟩

theorem settle_ok {p : ResponseParser} (h : p.errno = .ok) :
    settle p = p := by
  simp [settle, h]

theorem settle_errno (p : ResponseParser) : (settle p).errno = p.errno := by
  unfold settle
  split <;> rfl

theorem settle_data (p : ResponseParser) : (settle p).data = p.data := by
  unfold settle
  split <;> rfl

theorem settle_cases (p : ResponseParser) :
    settle p = p ∨ (settle p).result.state = .error := by
  unfold settle
  split
  · exact .inl rfl
  · exact .inl rfl
  · exact .inr rfl

theorem settle_settle (p : ResponseParser) : settle (settle p) = settle p := by
  cases h : p.errno <;> simp [settle, h]

end ResponseParser

open ResponseParser

section

variable {L : Type} [HttpParserLibrary L]

/-- What the library calls back in a number of calls if it is never paused, and
the error it ends with. -/
def trace : L → List Bytes → List HttpCallback × Option String
  | _, [] => ([], none)
  | l, data :: calls =>
      match HttpParserLibrary.execute l data with
      | (l', cbs, none) =>
          let rest := trace l' calls
          (cbs ++ rest.1, rest.2)
      | (_, cbs, some description) => (cbs, some description)

namespace LibraryParser

/-- A call of a parser that has stopped. -/
theorem responseParse_stopped {p : LibraryParser L} (h : p.errno ≠ .ok)
    (data : Bytes) :
    (responseParse p data).toResponseParser = p.toResponseParser.settle := by
  unfold responseParse execute
  rw [if_neg h]

theorem foldl_stopped {p : LibraryParser L} (h : p.errno ≠ .ok)
    (hs : p.toResponseParser.settle = p.toResponseParser) (calls : List Bytes) :
    (calls.foldl responseParse p).toResponseParser = p.toResponseParser := by
  induction calls generalizing p with
  | nil => rfl
  | cons data calls ih =>
      have hcall := (responseParse_stopped h data).trans hs
      have hrest := ih (p := responseParse p data) (by rw [hcall]; exact h)
        (by rw [hcall]; exact hs)
      rw [List.foldl_cons, hrest, hcall]

/-- The calls come to what the trace of the library does. -/
theorem foldl_trace : ∀ (calls : List Bytes) {p : LibraryParser L},
    p.errno = .ok →
    (calls.foldl responseParse p).toResponseParser =
      ((p.toResponseParser.callbacks (trace p.parser calls).1).endWith
        (trace p.parser calls).2).settle
  | [], p, h => (settle_ok h).symm
  | data :: calls, p, h => by
      match hx : HttpParserLibrary.execute p.parser data with
      | (l, cbs, err) =>
          have hcall : responseParse p data =
              { ((p.toResponseParser.callbacks cbs).endWith err).settle with
                parser := l } := by
            unfold responseParse execute
            rw [if_pos h, hx]
          -- a parser that has stopped makes nothing of the other calls
          have hstopped (q : ResponseParser) (hq : q.errno ≠ .ok) :
              (calls.foldl responseParse
                ({ q.settle with parser := l } : LibraryParser L)
                ).toResponseParser = q.settle :=
            foldl_stopped (by rw [settle_errno]; exact hq) (settle_settle q)
              calls
          rw [List.foldl_cons, hcall]
          cases err with
          | some description =>
              have htrace : trace p.parser (data :: calls) =
                  (cbs, some description) := by
                simp [trace, hx]
              rw [htrace]
              refine hstopped _ ?_
              simp only [endWith]
              split
              · exact HttpErrno.noConfusion
              · next hne => exact hne
          | none =>
              have htrace : trace p.parser (data :: calls) =
                  (cbs ++ (trace l calls).1, (trace l calls).2) := by
                simp [trace, hx]
              rw [htrace, callbacks_append]
              by_cases hok : (p.toResponseParser.callbacks cbs).errno = .ok
              · have hrest := foldl_trace calls
                  (p := { p.toResponseParser.callbacks cbs with parser := l })
                  hok
                have hsettled : ((p.toResponseParser.callbacks cbs).endWith
                    none).settle = p.toResponseParser.callbacks cbs :=
                  settle_ok hok
                rw [hsettled]
                exact hrest
              · rw [callbacks_stopped hok, endWith_stopped hok,
                  endWith_stopped hok]
                exact hstopped _ hok

/-- The parser after a number of calls, by the trace of the library. -/
theorem parse_trace (calls : List Bytes) :
    (parse calls : LibraryParser L).toResponseParser =
      ((({} : ResponseParser).callbacks
        (trace (HttpParserLibrary.init : L) calls).1).endWith
        (trace (HttpParserLibrary.init : L) calls).2).settle :=
  foldl_trace calls rfl

end LibraryParser

end

/-! ## Nothing comes after a result -/

/-- Only the headers that are put together differ. -/
structure Aside (p q : ResponseParser) : Prop where
  errno : q.errno = p.errno
  result : q.result = p.result
  redirect : q.redirect = p.redirect
  data : q.data = p.data
  found : q.found = p.found

theorem aside_flushLast (p : ResponseParser) : Aside p (flushLast p) := by
  unfold flushLast
  split <;> exact ⟨rfl, rfl, rfl, rfl, rfl⟩

theorem aside_onHeaderField (data : Bytes) (p : ResponseParser) :
    Aside p (p.onHeaderField data) := by
  unfold onHeaderField
  split <;> exact ⟨rfl, rfl, rfl, rfl, rfl⟩

theorem aside_onHeaderValue (data : Bytes) (p : ResponseParser) :
    Aside p (p.onHeaderValue data) := by
  unfold onHeaderValue
  split <;> exact ⟨rfl, rfl, rfl, rfl, rfl⟩

/-- What a callback can do. -/
inductive Effect (p : ResponseParser) : HttpCallback → ResponseParser → Prop
  | good {code : Nat} (data : Bytes) : code ∈ [200, 202, 203] →
      Effect p (.status code data) p
  | redirect {code : Nat} (data : Bytes) : code ∈ [301, 302, 303] →
      Effect p (.status code data) { p with redirect := true }
  | refuse {code : Nat} (data : Bytes) : code ∉ [200, 202, 203] →
      code ∉ [301, 302, 303] →
      Effect p (.status code data) (stop .error
        { p with result.errStr := toString code ++ " " ++ text data })
  | field (data : Bytes) : Aside p (p.onHeaderField data) →
      Effect p (.headerField data) (p.onHeaderField data)
  | value (data : Bytes) : Aside p (p.onHeaderValue data) →
      Effect p (.headerValue data) (p.onHeaderValue data)
  | complete (contentLength : Nat) {q : ResponseParser} : Aside p q →
      q = flushLast p → p.redirect = false →
      Effect p (.headersComplete contentLength)
        { q with
          found := some q.headers, result.contentLength := contentLength }
  | located (contentLength : Nat) {q : ResponseParser} {uri : String} :
      Aside p q → q = flushLast p → p.redirect = true →
      q.headers.lookup "Location" = some uri →
      Effect p (.headersComplete contentLength) (stop .redirect
        { q with found := some q.headers, result.redirectUri := uri })
  | missing (contentLength : Nat) {q : ResponseParser} : Aside p q →
      q = flushLast p → p.redirect = true →
      q.headers.lookup "Location" = none →
      Effect p (.headersComplete contentLength) (stop .error
        { q with
          found := some q.headers
          result.errStr := "Invalid redirect, missing Location header" })
  | body (data : Bytes) : Effect p (.body data) (p.onBody data)
  | done : Effect p .messageComplete (stop .done p)

theorem onStatus_effect (code : Nat) (data : Bytes) (p : ResponseParser) :
    Effect p (.status code data) (p.onStatus code data) := by
  unfold onStatus
  split
  case h_1 | h_2 | h_3 => exact .good data (by decide)
  case h_4 | h_5 | h_6 => exact .redirect data (by decide)
  case h_7 => exact .refuse data (by simp_all) (by simp_all)

theorem onHeadersComplete_effect (contentLength : Nat) (p : ResponseParser) :
    Effect p (.headersComplete contentLength)
      (p.onHeadersComplete contentLength) := by
  have haside := aside_flushLast p
  have hredirect : (flushLast p).redirect = p.redirect := haside.redirect
  unfold onHeadersComplete
  simp only []
  split
  · next h =>
      have hp : p.redirect = true := hredirect.symm.trans h
      split
      · next uri hl => exact .located contentLength haside rfl hp hl
      · next hl => exact .missing contentLength haside rfl hp hl
  · next h =>
      have hp : p.redirect = false :=
        hredirect.symm.trans (Bool.eq_false_iff.mpr h)
      exact .complete contentLength haside rfl hp

theorem callback_effect (cb : HttpCallback) (p : ResponseParser) :
    Effect p cb (p.callback cb) := by
  cases cb with
  | status code data => exact onStatus_effect code data p
  | headerField data => exact .field data (aside_onHeaderField data p)
  | headerValue data => exact .value data (aside_onHeaderValue data p)
  | headersComplete contentLength =>
      exact onHeadersComplete_effect contentLength p
  | body data => exact .body data
  | messageComplete => exact .done

/-- Among the callbacks of a call: there is no result yet, or the parser has been
paused. -/
def Running (p : ResponseParser) : Prop :=
  (p.errno = .ok ∧ p.result.state = .inProgress) ∨ p.errno = .paused

theorem Effect.running {p q : ResponseParser} {cb : HttpCallback}
    (h : Effect p cb q) (hok : p.errno = .ok)
    (hstate : p.result.state = .inProgress) : Running q := by
  cases h with
  | good | redirect | body => exact .inl ⟨hok, hstate⟩
  | field _ haside | value _ haside =>
      exact .inl ⟨haside.errno.trans hok, haside.result ▸ hstate⟩
  | complete _ haside =>
      refine .inl ⟨haside.errno.trans hok, ?_⟩
      simp only [haside.result, hstate]
  | refuse | located | missing | done => exact .inr rfl

theorem Running.callbacks {p : ResponseParser} (h : Running p)
    (cbs : List HttpCallback) : Running (p.callbacks cbs) := by
  induction cbs generalizing p with
  | nil => exact h
  | cons cb cbs ih =>
      rcases h with ⟨hok, hstate⟩ | hpaused
      · rw [callbacks_cons cb cbs hok]
        exact ih ((callback_effect cb p).running hok hstate)
      · have hne : p.errno ≠ .ok := by simp [hpaused]
        rw [callbacks_stopped hne]
        exact .inr hpaused

/-- A parser that has stopped and does not change any more. -/
def Stopped (p : ResponseParser) : Prop := p.errno ≠ .ok ∧ settle p = p

theorem Running.stopped {p : ResponseParser} (h : Running p)
    (hstate : p.result.state ≠ .inProgress) : Stopped p := by
  rcases h with ⟨-, hprogress⟩ | hpaused
  · exact absurd hprogress hstate
  · exact ⟨by simp [hpaused], by simp [settle, hpaused]⟩

theorem Stopped.stays {p : ResponseParser} (h : Stopped p)
    (cbs : List HttpCallback) (err : Option String) :
    settle (endWith err (p.callbacks cbs)) = p := by
  rw [callbacks_stopped h.1, endWith_stopped h.1, h.2]

section

variable {L : Type} [HttpParserLibrary L]

/-- Between calls there is no result yet, or the parser has stopped. -/
theorem running_or_stopped (calls : List Bytes) :
    Running (LibraryParser.parse calls : LibraryParser L).toResponseParser ∨
      Stopped (LibraryParser.parse calls : LibraryParser L).toResponseParser := by
  have hrunning := Running.callbacks (p := {}) (.inl ⟨rfl, rfl⟩)
    (trace (HttpParserLibrary.init : L) calls).1
  rw [LibraryParser.parse_trace]
  generalize ResponseParser.callbacks _ _ = p at hrunning ⊢
  by_cases hne : (endWith (trace (HttpParserLibrary.init : L) calls).2
      p).errno = .ok
  · rw [settle_ok hne]
    cases herr : (trace (HttpParserLibrary.init : L) calls).2 with
    | none => exact .inl hrunning
    | some description =>
        rw [herr] at hne
        simp only [endWith] at hne
        split at hne
        · cases hne
        · next hstopped => exact absurd hne hstopped
  · exact .inr ⟨by rw [settle_errno]; exact hne, settle_settle _⟩

theorem parse_append (before after : List Bytes) :
    (LibraryParser.parse (before ++ after) : LibraryParser L) =
      after.foldl LibraryParser.responseParse (LibraryParser.parse before) := by
  rw [LibraryParser.parse, List.foldl_append]
  rfl

/-- A result that is there after some calls. -/
theorem parse_final {before after : List Bytes}
    (h : (LibraryParser.parse before : LibraryParser L).result.state ≠
      .inProgress) :
    (LibraryParser.parse (before ++ after) : LibraryParser L).toResponseParser =
      (LibraryParser.parse before : LibraryParser L).toResponseParser := by
  have hstopped : Stopped
      (LibraryParser.parse before : LibraryParser L).toResponseParser := by
    rcases running_or_stopped (L := L) before with hrunning | hstopped
    · exact hrunning.stopped h
    · exact hstopped
  rw [parse_append]
  exact LibraryParser.foldl_stopped hstopped.1 hstopped.2 after

/-- A result that is there among the callbacks of a call. -/
theorem callbacks_final {before after : List Bytes} {data : Bytes} {l : L}
    {pre post : List HttpCallback} {err : Option String}
    (hexec : HttpParserLibrary.execute
      (LibraryParser.parse before : LibraryParser L).parser data =
        (l, pre ++ post, err))
    (h : ((LibraryParser.parse before : LibraryParser L).toResponseParser.callbacks
      pre).result.state ≠ .inProgress) :
    (LibraryParser.parse (before ++ data :: after) :
        LibraryParser L).toResponseParser =
      (LibraryParser.parse before : LibraryParser L).toResponseParser.callbacks
        pre := by
  have hstopped : Stopped ((LibraryParser.parse before :
      LibraryParser L).toResponseParser.callbacks pre) := by
    rcases running_or_stopped (L := L) before with hrunning | hstopped
    · exact (hrunning.callbacks pre).stopped h
    · rw [callbacks_stopped hstopped.1]
      exact hstopped
  have hcall : (LibraryParser.responseParse
      (LibraryParser.parse before : LibraryParser L) data).toResponseParser =
      (LibraryParser.parse before : LibraryParser L).toResponseParser.callbacks
        pre := by
    by_cases hok : (LibraryParser.parse before : LibraryParser L).errno = .ok
    · unfold LibraryParser.responseParse LibraryParser.execute
      rw [if_pos hok, hexec]
      simp only [callbacks_append]
      exact hstopped.stays post err
    · rw [callbacks_stopped hok] at hstopped ⊢
      rw [LibraryParser.responseParse_stopped hok, hstopped.2]
  rw [parse_append, List.foldl_cons]
  refine (LibraryParser.foldl_stopped ?_ ?_ after).trans hcall
  · rw [hcall]
    exact hstopped.1
  · rw [hcall]
    exact hstopped.2

end

/-! ## The order of the callbacks -/

/-- How far a response has come, with its status code. -/
inductive Phase
  | start
  | status (code : Nat)
  | headers (code : Nat)
  | body (code : Nat)
  | complete (code : Nat)
  deriving DecidableEq, Repr

namespace Phase

def code : Phase → Option Nat
  | .start => none
  | .status code | .headers code | .body code | .complete code => some code

/-- What the library may call back next: the status before the headers, and the
body after their end, where trailers may follow it. What comes after the message
is no part of it. -/
def next : Phase → HttpCallback → Option Phase
  | .start, .status code _ => some (.status code)
  | .status code, .status code' _ =>
      if code' = code then some (.status code) else none
  | .status code, .headerField _ | .status code, .headerValue _
  | .headers code, .headerField _ | .headers code, .headerValue _ =>
      some (.headers code)
  | .status code, .headersComplete _ | .headers code, .headersComplete _ =>
      some (.body code)
  | .body code, .headerField _ | .body code, .headerValue _
  | .body code, .body _ => some (.body code)
  | .body code, .messageComplete | .complete code, _ => some (.complete code)
  | _, _ => none

theorem next_code {φ φ' : Phase} {cb : HttpCallback} {code : Nat}
    (h : φ.next cb = some φ') (hc : φ.code = some code) :
    φ'.code = some code := by
  unfold next at h
  split at h
  case h_1 => cases hc
  case h_2 =>
    split at h
    · cases h
      exact hc
    · cases h
  all_goals cases h <;> exact hc

theorem foldlM_code : ∀ {cbs : List HttpCallback} {φ φ' : Phase} {code : Nat},
    cbs.foldlM next φ = some φ' → φ.code = some code → φ'.code = some code
  | [], φ, φ', code, h, hc => by
      cases h
      exact hc
  | cb :: cbs, φ, φ', code, h, hc => by
      rw [List.foldlM_cons] at h
      obtain ⟨φ₁, hnext, hrest⟩ := Option.bind_eq_some_iff.mp h
      exact foldlM_code hrest (next_code hnext hc)

end Phase

/-- The callbacks come in the order of a response. -/
def Ordered (cbs : List HttpCallback) : Prop :=
  (cbs.foldlM Phase.next Phase.start).isSome = true

instance : DecidablePred Ordered :=
  fun cbs => inferInstanceAs
    (Decidable ((cbs.foldlM Phase.next Phase.start).isSome = true))

/-- What a parser that has not stopped knows of the response. -/
def Knows (φ : Phase) (p : ResponseParser) : Prop :=
  p.result.state = .inProgress ∧
  match φ with
  | .start => p.data = [] ∧ p.redirect = false
  | .status code | .headers code => p.data = [] ∧
      ((code ∈ [200, 202, 203] ∧ p.redirect = false) ∨
        (code ∈ [301, 302, 303] ∧ p.redirect = true))
  | .body code => code ∈ [200, 202, 203] ∧ p.redirect = false
  | .complete _ => False

/-- A body is that of a good response, and of no redirect. -/
def Wary (φ : Phase) (p : ResponseParser) : Prop :=
  p.data ≠ [] → (∃ code ∈ [200, 202, 203], φ.code = some code) ∧
    p.result.state ≠ .redirect

/-- Before the body. -/
theorem wary_of_empty {φ : Phase} {p : ResponseParser} (h : p.data = []) :
    Wary φ p := fun hne => absurd h hne

section

variable {φ' : Phase} {p q : ResponseParser} {cb : HttpCallback} {code : Nat}

theorem Knows.start (h : Knows .start p) (he : Effect p cb q)
    (hnext : Phase.start.next cb = some φ') :
    (q.errno = .ok → Knows φ' q) ∧ Wary φ' q := by
  obtain ⟨hstate, hdata, hredirect⟩ := h
  cases he with
  | good data hcode =>
      cases hnext
      exact ⟨fun _ => ⟨hstate, hdata, .inl ⟨hcode, hredirect⟩⟩,
        wary_of_empty hdata⟩
  | redirect data hcode =>
      cases hnext
      exact ⟨fun _ => ⟨hstate, hdata, .inr ⟨hcode, rfl⟩⟩, wary_of_empty hdata⟩
  | refuse => exact ⟨HttpErrno.noConfusion, wary_of_empty hdata⟩
  | field | value | complete | located | missing | body | done => cases hnext

/-- The status and the headers. -/
theorem Knows.head {φ : Phase} (hφ : φ = .status code ∨ φ = .headers code)
    (h : Knows φ p) (he : Effect p cb q) (hnext : φ.next cb = some φ') :
    (q.errno = .ok → Knows φ' q) ∧ Wary φ' q := by
  have hknown : p.result.state = .inProgress ∧ p.data = [] ∧
      ((code ∈ [200, 202, 203] ∧ p.redirect = false) ∨
        (code ∈ [301, 302, 303] ∧ p.redirect = true)) := by
    rcases hφ with rfl | rfl <;> exact h
  obtain ⟨hstate, hdata, hcode⟩ := hknown
  cases he with
  | good data hgood =>
      rcases hφ with rfl | rfl
      · simp only [Phase.next] at hnext
        split at hnext
        · cases hnext
          exact ⟨fun _ => h, wary_of_empty hdata⟩
        · cases hnext
      · cases hnext
  | redirect data hredirect =>
      rcases hφ with rfl | rfl
      · simp only [Phase.next] at hnext
        split at hnext
        · next heq =>
            cases hnext
            subst heq
            exact ⟨fun _ => ⟨hstate, hdata, .inr ⟨hredirect, rfl⟩⟩,
              wary_of_empty hdata⟩
        · cases hnext
      · cases hnext
  | refuse => exact ⟨HttpErrno.noConfusion, wary_of_empty hdata⟩
  | field _ haside | value _ haside =>
      have hheaders : φ' = .headers code := by
        rcases hφ with rfl | rfl <;> exact (Option.some.inj hnext).symm
      subst hheaders
      refine ⟨fun _ => ⟨haside.result ▸ hstate, haside.data.trans hdata, ?_⟩,
        wary_of_empty (haside.data.trans hdata)⟩
      rw [haside.redirect]
      exact hcode
  | complete _ haside _ hredirect =>
      have hbody : φ' = .body code := by
        rcases hφ with rfl | rfl <;> exact (Option.some.inj hnext).symm
      subst hbody
      have hgood : code ∈ [200, 202, 203] := by
        rcases hcode with ⟨hgood, -⟩ | ⟨-, htrue⟩
        · exact hgood
        · rw [hredirect] at htrue
          cases htrue
      refine ⟨fun _ => ⟨?_, hgood, haside.redirect.trans hredirect⟩,
        wary_of_empty (haside.data.trans hdata)⟩
      simp only [haside.result, hstate]
  | located _ haside | missing _ haside =>
      exact ⟨HttpErrno.noConfusion, wary_of_empty (haside.data.trans hdata)⟩
  | body => rcases hφ with rfl | rfl <;> cases hnext
  | done => rcases hφ with rfl | rfl <;> cases hnext

/-- The body and the trailers. -/
theorem Knows.tail (h : Knows (.body code) p) (he : Effect p cb q)
    (hnext : (Phase.body code).next cb = some φ') :
    (q.errno = .ok → Knows φ' q) ∧ Wary φ' q := by
  obtain ⟨hstate, hcode, hredirect⟩ := h
  have hne (s : ParseState) (hs : s = .inProgress ∨ s = .done) :
      s ≠ .redirect := by
    rcases hs with rfl | rfl <;> exact ParseState.noConfusion
  cases he with
  | field _ haside | value _ haside =>
      cases hnext
      refine ⟨fun _ => ⟨haside.result ▸ hstate, hcode,
        haside.redirect.trans hredirect⟩, fun _ => ⟨⟨code, hcode, rfl⟩, ?_⟩⟩
      rw [haside.result]
      exact hne _ (.inl hstate)
  | body data =>
      cases hnext
      exact ⟨fun _ => ⟨hstate, hcode, hredirect⟩,
        fun _ => ⟨⟨code, hcode, rfl⟩, hne _ (.inl hstate)⟩⟩
  | done =>
      cases hnext
      exact ⟨HttpErrno.noConfusion,
        fun _ => ⟨⟨code, hcode, rfl⟩, hne _ (.inr rfl)⟩⟩
  | good | redirect | refuse | complete | located | missing => cases hnext

theorem Knows.callback {φ : Phase} (h : Knows φ p) (he : Effect p cb q)
    (hnext : φ.next cb = some φ') :
    (q.errno = .ok → Knows φ' q) ∧ Wary φ' q := by
  cases φ with
  | start => exact h.start he hnext
  | status code => exact h.head (.inl rfl) he hnext
  | headers code => exact h.head (.inr rfl) he hnext
  | body code => exact h.tail he hnext
  | complete code => exact h.2.elim

end

theorem Wary.callbacks : ∀ {cbs : List HttpCallback} {φ φ' : Phase}
    {p : ResponseParser}, cbs.foldlM Phase.next φ = some φ' →
    (p.errno = .ok → Knows φ p) → Wary φ p → Wary φ' (p.callbacks cbs)
  | [], φ, φ', p, hw, _, h => by
      cases hw
      exact h
  | cb :: cbs, φ, φ', p, hw, hk, h => by
      rw [List.foldlM_cons] at hw
      obtain ⟨φ₁, hnext, hrest⟩ := Option.bind_eq_some_iff.mp hw
      by_cases hok : p.errno = .ok
      · rw [callbacks_cons cb cbs hok]
        obtain ⟨hk', h'⟩ := (hk hok).callback (callback_effect cb p) hnext
        exact Wary.callbacks hrest hk' h'
      · have hstays : Wary φ₁ p := fun hne =>
          ⟨(h hne).1.imp fun code hc => ⟨hc.1, Phase.next_code hnext hc.2⟩,
            (h hne).2⟩
        have hrest' := Wary.callbacks (p := p) hrest
          (fun h' => absurd h' hok) hstays
        rw [callbacks_stopped hok] at hrest' ⊢
        exact hrest'

/-- What is left to do after the last callback keeps the body and makes no
redirect. -/
theorem Wary.settle {φ : Phase} {p : ResponseParser} (h : Wary φ p)
    (err : Option String) : Wary φ (settle (endWith err p)) := by
  obtain ⟨hresult, hended⟩ := endWith_result err p
  have hdata := (settle_data (endWith err p)).trans hended
  have hstate : (ResponseParser.settle (endWith err p)).result.state =
      .redirect → p.result.state = .redirect := by
    intro hredirect
    rcases settle_cases (endWith err p) with hsame | herror
    · rw [hsame, hresult] at hredirect
      exact hredirect
    · rw [herror] at hredirect
      cases hredirect
  intro hne
  rw [hdata] at hne
  exact ⟨(h hne).1, fun hr => (h hne).2 (hstate hr)⟩

section

variable {L : Type} [HttpParserLibrary L]

/-- Parser results are final, and bodies are only good bodies: whatever is given
to `response_parse`, a result that is there between two calls or among the
callbacks of one stays as it is, and `on_data` is not called any more; it is not
called for a response with another status than 200, 202 or 203, and not before a
redirect. -/
theorem results_final {calls : List Bytes}
    (hord : Ordered (trace (HttpParserLibrary.init : L) calls).1) :
    (∀ before after, calls = before ++ after →
      (LibraryParser.parse before : LibraryParser L).result.state ≠
        .inProgress →
      (LibraryParser.parse calls : LibraryParser L).result =
          (LibraryParser.parse before : LibraryParser L).result ∧
        (LibraryParser.parse calls : LibraryParser L).data =
          (LibraryParser.parse before : LibraryParser L).data) ∧
    (∀ before data after pre post l err, calls = before ++ data :: after →
      HttpParserLibrary.execute
        (LibraryParser.parse before : LibraryParser L).parser data =
          (l, pre ++ post, err) →
      ∀ p : ResponseParser, p = (LibraryParser.parse before :
          LibraryParser L).toResponseParser.callbacks pre →
      p.result.state ≠ .inProgress →
      (LibraryParser.parse calls : LibraryParser L).result = p.result ∧
        (LibraryParser.parse calls : LibraryParser L).data = p.data) ∧
    (∀ code reason rest, (trace (HttpParserLibrary.init : L) calls).1 =
        .status code reason :: rest → code ∉ [200, 202, 203] →
      (LibraryParser.parse calls : LibraryParser L).data = []) ∧
    ((LibraryParser.parse calls : LibraryParser L).result.state = .redirect →
      (LibraryParser.parse calls : LibraryParser L).data = []) := by
  obtain ⟨φ, hφ⟩ := Option.isSome_iff_exists.mp hord
  have hwary : Wary φ
      (LibraryParser.parse calls : LibraryParser L).toResponseParser := by
    rw [LibraryParser.parse_trace]
    exact (Wary.callbacks hφ (fun _ => ⟨rfl, rfl, rfl⟩)
      (wary_of_empty rfl)).settle _
  refine ⟨?_, ?_, ?_, ?_⟩
  · rintro before after rfl h
    have hfinal : (LibraryParser.parse (before ++ after) :
        LibraryParser L).toResponseParser = _ := parse_final h
    exact ⟨congrArg _ hfinal, congrArg _ hfinal⟩
  · rintro before data after pre post l err rfl hexec p rfl h
    have hfinal : (LibraryParser.parse (before ++ data :: after) :
        LibraryParser L).toResponseParser = _ := callbacks_final hexec h
    exact ⟨congrArg _ hfinal, congrArg _ hfinal⟩
  · intro code reason rest hcbs hcode
    by_contra hne
    obtain ⟨⟨code', hgood, hknown⟩, -⟩ := hwary hne
    have hcode' : φ.code = some code := by
      rw [hcbs, List.foldlM_cons] at hφ
      exact Phase.foldlM_code hφ rfl
    rw [hcode'] at hknown
    cases hknown
    exact hcode hgood
  · intro hredirect
    by_contra hne
    exact (hwary hne).2 hredirect

end

/-- The bytes of a text. -/
def ascii (s : String) : Bytes := s.toList.map fun c => UInt8.ofNat c.toNat

/-- A redirect, whole and cut in two. -/
def whole : List Bytes := [ascii "HTTP/1.1 302 Found\r\nLocation: /b\r\n\r\n"]

def inTwo : List Bytes :=
  [ascii "HTTP/1.1 302 Fo", ascii "und\r\nLocation: /b\r\n\r\n"]

/-- What a library makes of it, by the bytes it has had. -/
structure Recorded where
  consumed : Nat

instance : HttpParserLibrary Recorded where
  parseUrl _ := none
  init := ⟨0⟩
  execute l data :=
    let after :=
      [.headerField (ascii "Location"), .headerValue (ascii "/b"),
        .headersComplete (UInt64.size - 1)]
    if l.consumed = 0 ∧ [data] = whole then
      (⟨38⟩, .status 302 (ascii "Found") :: after, none)
    else if l.consumed = 0 ∧ inTwo.head? = some data then
      (⟨15⟩, [.status 302 (ascii "Fo")], none)
    else if l.consumed = 15 ∧ inTwo.tail = [data] then
      (⟨38⟩, .status 302 (ascii "und") :: after, none)
    else (l, [], some "unknown")

theorem results_final_inTwo :
    (LibraryParser.parse inTwo : LibraryParser Recorded).result.redirectUri =
        "/b" ∧
      (LibraryParser.parse inTwo : LibraryParser Recorded).data = [] := by
  have hord : Ordered
      (trace (HttpParserLibrary.init : Recorded) inTwo).1 := by decide
  exact ⟨by decide, (results_final hord).2.2.2 (by decide)⟩

end EcwidDownloader.Http
