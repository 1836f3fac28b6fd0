import EcwidDownloader.Jobs.OnTickSimple
import EcwidDownloader.Downloader.Simple

/-!
# FactorySimple

`create` makes a downloader and runs it. That a `Creation` stands for all it can
give is a fact about `run`: it returns false with a failed status only, and true
with a download under way only.
-/

namespace EcwidDownloader

/-- `FactorySimple::create`, with the downloader it makes and what its `run`
meets. -/
def FactorySimple.create {S P D : Type} [TCPSocket S] [HttpParser P]
    (downloader : D) (sock : S) (uri fname : String)
    (resources : DownloaderSimple.Resources) (fault : Option ErrorEvent) :
    Creation D :=
  let runned := DownloaderSimple.run uri fname resources fault
    ({ sock := sock, owner := {} } : DownloaderSimple.World S P)
  { downloader := if runned.1 then some downloader else none
    status := runned.2.owner.status
    state := by
      rw [DownloaderSimple.run_state (Prod.eta runned).symm]
      cases runned.1 <;> rfl }

end EcwidDownloader
