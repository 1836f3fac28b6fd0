import EcwidDownloader.Proofs.DownloadedBody
import EcwidDownloader.Proofs.TcpOwner

/-!
# The two halves of a download

A downloader on a throttled socket is an owner of the socket like any other: it
touches the socket by its calls only. So a run of the two is a run of the socket
and a run of the downloader at once, with the same bytes going over from the one
to the other, and every theorem about one of them alone is a theorem about the
two.
-/

namespace EcwidDownloader

open Lib

namespace DownloaderSimple

open Http (LibraryParser)
open TCPSocketBandwidth (Call Observed Owns call created publishedBytes
  receivedBytes)

namespace Throttled

section

variable {P : Type} [HttpParser P]

theorem abiding_calls (s₀ : TCPSocketBandwidth) :
    Abiding fun s : TCPSocketBandwidth =>
      ∃ calls : List Call, s = calls.foldl (fun s c => call c s) s₀ := by
  refine abiding_of_call fun c s => ?_
  rintro ⟨calls, rfl⟩
  exact ⟨calls ++ [c], by rw [List.foldl_append]; rfl⟩

theorem owns_publish : Owns (publish (P := P)) := fun event w =>
  ((abiding_calls w.sock).onSocketEvent event
    (if event = .endEvent then { w with owner.peerEnded := true }
      else w)).sock ⟨[], by split <;> rfl⟩

/-- The run of the socket alone. -/
theorem Runs.socket {w₀ w : Throttled P}
    {hist : List (Throttled P × Event × Faults)} {conn bufferMaxLength : Nat}
    (h₀ : w₀.sock = (created conn bufferMaxLength).sock)
    (hr : Runs w₀ hist w) :
    ∃ seen o, TCPSocketBandwidth.Runs (created conn bufferMaxLength) seen o ∧
      o.sock = w.sock ∧ receivedBytes o.owner = deliveredBytes hist := by
  induction hr with
  | nil => exact ⟨[], _, .nil, h₀.symm, rfl⟩
  | @snoc t u e hist hr hs ih =>
      obtain ⟨seen, o, ho, hsock, hreceived⟩ := ih
      obtain ⟨event, faults⟩ := e
      have hbytes : deliveredBytes (hist ++ [(t, event, faults)]) =
          receivedBytes o.owner ++ event.segment.getD [] := by
        rw [hreceived]
        simp [deliveredBytes]
      rw [hbytes]
      have hfound : o.sock =
          ({ t with owner.faults := faults } : Throttled P).sock := hsock
      unfold Lib.Graph step at hs
      cases event with
      | inner event sync =>
          simp only [] at hs
          split at hs
          · next hc =>
              obtain ⟨react, o', hstep, hsock', hreceived'⟩ :=
                owns_publish.step_inner hfound hc hs
              refine ⟨_, o', ho.snoc hstep, hsock', hreceived'.trans ?_⟩
              cases event <;> rfl
          · cases hs
      | transfer length =>
          obtain ⟨react, o', hstep, hsock', hreceived'⟩ :=
            owns_publish.step_transfer hfound hs
          exact ⟨_, o', ho.snoc hstep, hsock',
            hreceived'.trans (List.append_nil _).symm⟩
      | own event =>
          have hh : ∃ event', Handled { t with owner.faults := faults } event'
              u := by
            cases event with
            | socket e => cases hs
            | _ => exact ⟨_, handled_of_handle hs⟩
          obtain ⟨event', hh⟩ := hh
          obtain ⟨calls, hcalls⟩ :=
            hh.keeps (abiding_calls t.sock) ⟨[], rfl⟩
          obtain ⟨seen', o', ho', hsock', hreceived'⟩ := ho.calls calls
          refine ⟨seen', o', ho', ?_,
            hreceived'.trans (List.append_nil _).symm⟩
          rw [hsock', hcalls, hsock]

end

variable {L : Type} [Http.HttpParserLibrary L]

/-- A run of a downloader on a throttled socket is a run of the socket and a run
of the downloader at once: the downloader is left in the state it has in its own
run, the socket in the state it has in its own, and what the socket has published
of the stream is what has come to the downloader, in portions of which none is
empty or comes before the request was written. -/
theorem throttled_halves {w₀ w : Throttled (LibraryParser L)}
    {hist : List (Throttled (LibraryParser L) × Event × Faults)}
    (h₀ : Started w₀) (hr : Runs w₀ hist w) (hin : Meets Delivers hist) :
    ∃ conn bufferMaxLength seen o heard x,
      TCPSocketBandwidth.Runs (created conn bufferMaxLength) seen o ∧
      o.sock = w.sock ∧ receivedBytes o.owner = deliveredBytes hist ∧
      DownloaderSimple.Runs w₀ heard x ∧
      w = { x with sock := w.sock, owner.faults := w.owner.faults } ∧
      Meets Comes heard ∧ brought heard = publishedBytes o.owner := by
  obtain ⟨heard, hh, hbytes⟩ := (hr.carried h₀ hin).hearing
  obtain ⟨x, hx, heq⟩ := hh.run
  obtain ⟨conn, bufferMaxLength, backlog, uri, fname, resources, fault, hrun⟩ :=
    h₀
  obtain ⟨uriParsed, text, hw⟩ := run_true hrun
  have hsock₀ : w₀.sock = (created conn bufferMaxLength).sock := by
    rw [hw]
    rfl
  obtain ⟨seen, o, ho, hsock, hreceived⟩ := hr.socket hsock₀
  have hfaithful := (TCPSocketBandwidth.Faithful.run ho).1
  refine ⟨conn, bufferMaxLength, seen, o, heard, x, ho, hsock, hreceived, hx,
    heq, hh.comes, ?_⟩
  have hall := hfaithful.bytes
  rw [hreceived, ← hbytes, hsock] at hall
  exact List.append_cancel_right hall

theorem throttled_halves_fetched : ∃ hist w conn bufferMaxLength seen o heard x,
    Runs asked hist w ∧
      TCPSocketBandwidth.Runs (created conn bufferMaxLength) seen o ∧
      o.sock = w.sock ∧ DownloaderSimple.Runs asked heard x ∧
      brought heard = oneByte := by
  obtain ⟨hist, w, hexec, hsent, hbuffer, hin⟩ : ∃ hist w,
      exec step asked fetched = some (hist, w) ∧
        deliveredBytes hist = oneByte ∧ w.sock.buffer = [] ∧
        Meets Delivers hist :=
    ⟨_, _, rfl, rfl, rfl, by unfold Meets; decide⟩
  have h₀ : Started asked :=
    ⟨0, 20, 10, "http://a.b", "f", {}, none, rfl⟩
  obtain ⟨conn, bufferMaxLength, seen, o, heard, x, ho, hsock, hreceived, hx,
    -, -, hbrought⟩ := throttled_halves h₀ (run_of_exec hexec) hin
  refine ⟨hist, w, conn, bufferMaxLength, seen, o, heard, x,
    run_of_exec hexec, ho, hsock, hx, ?_⟩
  have hall := (TCPSocketBandwidth.Faithful.run ho).1.bytes
  rw [hreceived, hsent, hsock, hbuffer, unread_nil, List.append_nil] at hall
  rw [hbrought, hall]

end Throttled

end DownloaderSimple

end EcwidDownloader
