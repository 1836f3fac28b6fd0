import EcwidDownloader.Proofs.ThrottledDownload
import EcwidDownloader.Proofs.UriRoundTrip

/-!
# From the peer's bytes to the file

A response comes in over the inner socket in segments of any size, waits in the
queue of the throttled socket, is given out in the portions a controller asks
for, taken apart by the parser and written to a file that accepts as much as it
likes of each write. Whatever the sizes and the order of all this, what has been
received is at any time a first part of the body that the response has, and a
download that reports Done has all of it.

What the library makes of the response is a parameter. That it is the same for
every way of cutting the response is what its documentation promises, and all
that is used of it.
-/

namespace EcwidDownloader

open Lib

namespace Http

variable {L : Type} [HttpParserLibrary L]

/-! ## A first part of a response -/

/-- The library makes the same of a response however it is cut. -/
def Understood (L : Type) [HttpParserLibrary L] (response : Bytes)
    (ended : Bool) (elements : List HttpCallback) (failed : Bool) : Prop :=
  ∀ pieces : List Bytes, (∀ piece ∈ pieces, piece ≠ []) →
    pieces.flatten = response →
    Cut L response ended elements failed
      (pieces ++ if ended then [[]] else [])

/-- The calls a first part of a response has come in. -/
structure Begins (response : Bytes) (ended : Bool) (pieces tail : List Bytes) :
    Prop where
  nonempty : ∀ piece ∈ pieces, piece ≠ []
  bytes : pieces.flatten <+: response
  last : tail ≠ [] → tail = [[]] ∧ pieces.flatten = response ∧ ended = true

variable {response : Bytes} {ended failed : Bool}
  {elements : List HttpCallback} {pieces tail : List Bytes}

/-- The rest of the response makes the calls up to all of it. -/
theorem Understood.completed (h : Understood L response ended elements failed)
    (hb : Begins response ended pieces tail) :
    ∃ after, outcome (LibraryParser.parse (pieces ++ tail ++ after) :
      LibraryParser L).toResponseParser = verdict elements failed := by
  by_cases htail : tail = []
  · obtain ⟨rest, hrest⟩ := hb.bytes
    have hcut := h (pieces ++ if rest = [] then [] else [rest])
      (fun piece hp => ?_) ?_
    · refine ⟨(if rest = [] then [] else [rest]) ++
        if ended then [[]] else [], ?_⟩
      rw [htail, List.append_nil, ← List.append_assoc]
      exact hcut.outcome_eq
    · rcases List.mem_append.mp hp with hp | hp
      · exact hb.nonempty piece hp
      · split at hp
        · cases hp
        · next hne => exact (List.mem_singleton.mp hp).symm ▸ hne
    · rw [List.flatten_append, ← hrest]
      split
      · next hnil => rw [hnil]; rfl
      · rw [List.flatten_singleton]
  · obtain ⟨rfl, hall, hended⟩ := hb.last htail
    have hcut := h pieces hb.nonempty hall
    rw [hended, if_pos rfl] at hcut
    exact ⟨[], by rw [List.append_nil]; exact hcut.outcome_eq⟩

/-- What has been taken of the body is a first part of it. -/
theorem Understood.body_prefix
    (h : Understood L response ended elements failed)
    (hb : Begins response ended pieces tail) :
    (LibraryParser.parse (pieces ++ tail) : LibraryParser L).data.flatten <+:
      (verdict elements failed).body := by
  obtain ⟨after, hafter⟩ := h.completed hb
  obtain ⟨more, hmore⟩ := parse_data (L := L) (pieces ++ tail) after
  rw [← hafter]
  show _ <+: (LibraryParser.parse _ : LibraryParser L).data.flatten
  rw [← hmore, List.flatten_append]
  exact List.prefix_append _ _

/-- A result that has been come to is that of the whole response. -/
theorem Understood.result_final
    (h : Understood L response ended elements failed)
    (hb : Begins response ended pieces tail)
    (hstate : (LibraryParser.parse (pieces ++ tail) :
      LibraryParser L).result.state ≠ .inProgress) :
    outcome (LibraryParser.parse (pieces ++ tail) :
      LibraryParser L).toResponseParser = verdict elements failed := by
  obtain ⟨after, hafter⟩ := h.completed hb
  rw [← hafter, parse_final hstate]

end Http

namespace DownloaderSimple

open Http (LibraryParser HttpParserLibrary Understood Begins verdict outcome)

variable {S L : Type} [HttpParserLibrary L]

/-! ## What a downloader has of a response -/

/-- What a downloader has received and has reported is in agreement with a
response. -/
structure Agrees (expected : Http.Outcome) (w : World S (LibraryParser L)) :
    Prop where
  received : w.owner.received <+: expected.body
  done : ∀ m ∈ w.owner.trace, (Mark.report m).state = .done →
    expected.state = .done ∧ (Mark.report m).received = expected.body
  redirect : ∀ m ∈ w.owner.trace, (Mark.report m).state = .redirect →
    expected.state = .redirect ∧
      w.owner.status.redirectUri = expected.redirectUri

variable {response stream : Bytes} {ended failed : Bool}
  {elements : List Http.HttpCallback} {pieces tail : List Bytes}

theorem Reception.Parsed.agrees {w : World S (LibraryParser L)}
    (hL : Understood L response ended elements failed)
    (hb : Begins response ended pieces tail)
    (h : (reception w).Parsed (pieces ++ tail)) :
    Agrees (verdict elements failed) w := by
  have hreceived : w.owner.received =
      (LibraryParser.parse (pieces ++ tail) : LibraryParser L).data.flatten :=
    h.received
  refine ⟨hreceived ▸ hL.body_prefix hb, fun m hm hdone => ?_,
    fun m hm hredirect => ?_⟩
  · obtain ⟨hrd, hall⟩ := (h.marks m hm).1 hdone
    have hstate := h.done hrd
    have hfinal := hL.result_final hb (by rw [hstate]; exact nofun)
    rw [← hfinal]
    exact ⟨hstate, hall.trans hreceived⟩
  · obtain ⟨hstate, huri⟩ := (h.marks m hm).2 hredirect
    have hfinal := hL.result_final hb (by rw [hstate]; exact nofun)
    rw [← hfinal]
    exact ⟨hstate, huri⟩

variable [TCPSocket S]

theorem Fetching.agrees {w : World S (LibraryParser L)}
    (hL : Understood L response ended elements failed)
    (h : Fetching stream w) (hstream : stream <+: response)
    (hend : w.owner.peerEnded = true → stream = response ∧ ended = true) :
    Agrees (verdict elements failed) w := by
  cases h with
  | begun _ _ _ hp hs =>
      have hnone : Begins response ended [] [] :=
        ⟨fun _ hm => absurd hm List.not_mem_nil, List.nil_prefix,
          fun hne => absurd rfl hne⟩
      exact Reception.Parsed.agrees hL hnone hp
  | @receiving f pieces _ hp _ hpieces _ hs =>
      rw [← List.append_nil pieces] at hp
      exact hp.agrees hL ⟨hpieces, hs ▸ hstream, fun hne => absurd rfl hne⟩
  | past pieces tail _ hp hpieces hs htail =>
      refine hp.agrees hL ⟨hpieces, hs.trans hstream, fun hne => ?_⟩
      obtain ⟨hlast, hall, hpeer⟩ := htail hne
      obtain ⟨hwhole, hended⟩ := hend hpeer
      exact ⟨hlast, hall.trans hwhole, hended⟩

/-! ## Over the throttled socket -/

namespace Throttled

/-- What has been received of a response, what has been written of it and what
has been reported are first parts of its body, or all of it: a download that
reports Done has received all of the body, and has it in its file unless the
shutdown came before the file was open. -/
theorem downloaded_body {response : Bytes} {ended failed : Bool}
    {elements : List Http.HttpCallback}
    (hL : Understood L response ended elements failed)
    {w₀ w : Throttled (LibraryParser L)}
    {hist : List (Throttled (LibraryParser L) × Event × Faults)}
    (h₀ : Started w₀) (hr : Runs w₀ hist w) (hin : Meets Delivers hist)
    (hsent : deliveredBytes hist <+: response)
    (hend : w.sock.eof = true →
      deliveredBytes hist = response ∧ ended = true) :
    Agrees (verdict elements failed) w ∧
    (w.owner.status.state ≠ .failed → Unfailed w →
      w.owner.disk.content <+: (verdict elements failed).body) ∧
    (Meets HandsOver hist → ∀ m ∈ w.owner.trace,
      (Mark.report m).state = .done →
      (Mark.report m).disk.closed = true ∧
        (Mark.report m).disk.content = (verdict elements failed).body) := by
  have hcarried := hr.carried h₀ hin
  obtain ⟨heard, hh, hbytes⟩ := hcarried.hearing
  have hstream : brought heard <+: response :=
    (hbytes ▸ List.prefix_append _ _ : brought heard <+: _).trans hsent
  have hagrees := (hh.fetching h₀.alone).agrees hL hstream fun hpeer => by
    obtain ⟨heof, hbuffer⟩ := hh.ended hpeer
    rw [hbuffer, unread_nil, List.append_nil] at hbytes
    rw [hbytes]
    exact hend heof
  obtain ⟨x, hx, heq⟩ := hh.run
  have howner : w.owner = { x.owner with faults := w.owner.faults } :=
    congrArg Linked.owner heq
  refine ⟨hagrees, fun hstate hunfailed => ?_, fun hhands m hm hdone => ?_⟩
  · have hfaithful := (h₀.alone.preserved hx).faithful
      (by rw [howner] at hstate; exact hstate)
    have hunfailed' : Unfailed x := by
      unfold Unfailed at hunfailed
      rw [howner] at hunfailed
      exact hunfailed
    have hcontent := hfaithful.2 hunfailed'
    have hreceived := hagrees.received
    rw [howner] at hreceived ⊢
    exact (hcontent ▸ List.take_prefix _ _).trans hreceived
  · have hdelivering : Delivering x :=
      hx.invariant Delivering (hh.hands hhands)
        (.inl ⟨.resolving, .none, rfl, started_alive h₀.alone⟩)
        fun w₁ o w₂ hI ho hs => hI.step ho hs
    have hvouched := hdelivering.vouched
    rw [howner] at hm
    have hcomplete := hvouched m hm hdone
    exact ⟨hcomplete.closed, hcomplete.content.trans
      (hagrees.done m (howner ▸ hm) hdone).2⟩

end Throttled

end DownloaderSimple

namespace Http

/-! ## A response of one byte -/

/-- A library that calls back for one byte after the other, with the calls that
are still to be made. -/
structure ByteWise where
  due : List (List HttpCallback)

def site : HttpParserUrl "http://a.b" where
  fieldSet
    | .schema | .host => true
    | _ => false
  port := 0
  off
    | .host => 7
    | _ => 0
  len
    | .schema => 4
    | .host => 3
    | _ => 0
  within f := by cases f <;> decide
  nonempty f hf := by cases f <;> simp_all

/-- The calls for the bytes of the response. -/
def dueCalls : List (List HttpCallback) :=
  List.replicate 13 [] ++
    [[.status 200 (ascii "O")], [.status 200 (ascii "K")], [], []] ++
    (ascii "Content-Length").map (fun b => [.headerField [b]]) ++
    [[], [], [.headerValue (ascii "1")], [], [], [], [.headersComplete 1],
      [.body [120], .messageComplete]]

instance : HttpParserLibrary ByteWise where
  parseUrl := onlySplits site
  init := ⟨dueCalls⟩
  execute l data :=
    (⟨l.due.drop data.length⟩, (l.due.take data.length).flatten, none)

theorem trace_byteWise : ∀ (pieces : List Bytes)
    (due : List (List HttpCallback)),
    trace (ByteWise.mk due) pieces =
      ((due.take pieces.flatten.length).flatten, none)
  | [], due => by simp [trace]
  | piece :: pieces, due => by
      have hrest := trace_byteWise pieces (due.drop piece.length)
      simp only [trace, HttpParserLibrary.execute, hrest, List.flatten_cons,
        List.length_append, List.take_add, List.flatten_append]

/-- The response the calls are made for. -/
def oneByteElements : List HttpCallback :=
  [.status 200 (ascii "OK"), .headerField (ascii "Content-Length"),
    .headerValue (ascii "1"), .headersComplete 1, .body [120],
    .messageComplete]

theorem delivery_dueCalls : Delivery oneByteElements dueCalls.flatten := by
  have hstatus := @Pieces.status 200 [ascii "O", ascii "K"] (by simp)
  have hfield := @Pieces.field ((ascii "Content-Length").map fun b => [b])
    (by decide)
  have hvalue := @Pieces.value [ascii "1"] (by simp)
  have hbody := @Pieces.body [[120]] (by simp)
  have hall := Delivery.cons hstatus (Delivery.cons hfield
    (Delivery.cons hvalue (Delivery.cons (.headersComplete 1)
      (Delivery.cons hbody (Delivery.cons .messageComplete .nil)))))
  exact hall

/-- It makes the same of the response for every way of cutting it. -/
theorem understood_byteWise :
    Understood ByteWise DownloaderSimple.oneByte false oneByteElements
      false := by
  intro pieces hpieces hflatten
  have hcalls : (pieces ++ if false = true then [[]] else []) = pieces :=
    List.append_nil pieces
  have htrace : trace (HttpParserLibrary.init : ByteWise) pieces =
      (dueCalls.flatten, none) := by
    rw [show (HttpParserLibrary.init : ByteWise) = ⟨dueCalls⟩ from rfl,
      trace_byteWise, hflatten]
    rfl
  rw [hcalls]
  refine ⟨⟨pieces, hpieces, hflatten, hcalls.symm⟩, ?_, ?_⟩
  · rw [htrace]
    exact ⟨dueCalls.flatten, [], (List.append_nil _).symm, delivery_dueCalls,
      fun _ hm => absurd hm List.not_mem_nil, fun _ => rfl⟩
  · rw [htrace]
    rfl

end Http

namespace DownloaderSimple

open Http (LibraryParser verdict)

namespace Throttled

/-- A downloader of the response, over a queue of 20 bytes. -/
def asked : Throttled (LibraryParser Http.ByteWise) :=
  (run "http://a.b" "f" {} none
    { sock := (TCPSocketBandwidth.create 0).setBuffer 20
      owner := { } }).2

/-- The response in two segments. The queue is full with the first and is emptied
in two portions, and the file is written. -/
def fetched : List (Event × Faults) :=
  requested ++
    [plainly (.inner (.dataEvent (oneByte.take 30)) []),
      plainly (.transfer 20),
      plainly (.inner (.dataEvent (oneByte.drop 30)) [19]),
      plainly (.own (.file 0 (.ok 0))), plainly (.own (.file 0 (.ok 1))),
      plainly (.own (.file 0 (.ok 0))), plainly (.inner .shutdownEvent [])]

theorem downloaded_body_fetched : ∃ hist w, Runs asked hist w ∧
    w.owner.status.state = .done ∧
    (verdict Http.oneByteElements false).body = [120] ∧
    ∀ m ∈ w.owner.trace, (Mark.report m).state = .done →
      (Mark.report m).disk.content = [120] := by
  obtain ⟨hist, w, hexec, hstate, hsent, heof, hin, hhands⟩ : ∃ hist w,
      exec step asked fetched = some (hist, w) ∧
        w.owner.status.state = .done ∧ deliveredBytes hist = oneByte ∧
        w.sock.eof = false ∧ Meets Delivers hist ∧ Meets HandsOver hist :=
    ⟨_, _, rfl, rfl, rfl, rfl, by unfold Meets; decide,
      by unfold Meets; decide⟩
  have h₀ : Started asked :=
    ⟨0, 20, 10, "http://a.b", "f", {}, none, rfl⟩
  have hbody : (verdict Http.oneByteElements false).body = [120] := by decide
  have h := downloaded_body Http.understood_byteWise h₀ (run_of_exec hexec) hin
    (hsent ▸ List.prefix_refl _)
    fun hend => absurd (heof.symm.trans hend) nofun
  exact ⟨hist, w, run_of_exec hexec, hstate, hbody, fun m hm hdone =>
    (h.2.2 hhands m hm hdone).2.trans hbody⟩

end Throttled

end DownloaderSimple

end EcwidDownloader
