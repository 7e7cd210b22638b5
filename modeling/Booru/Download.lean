import Booru.Client
import Booru.RunLog

/-! Saving collections: every post in the directory of its collection,
unless it is there already. -/

namespace Booru

variable {σ : Type}

structure FileFetcher (σ : Type) where
  exists? : Path → Run σ Bool
  fetch : String → Path → Run σ Int

structure DownloadReport where
  collections : Nat := 0
  downloaded : Nat := 0
  existing : Nat := 0
  failed : Nat := 0
  bytesWritten : Int := 0
  failures : List (Int × String) := []
  deriving DecidableEq, Repr

inductive Saving
  | existing
  | saved (bytes : Int)
  | failed (f : Failure)

namespace DownloadReport

def count (r : DownloadReport) (p : GrabbedPost) : Saving → DownloadReport
  | .existing => { r with existing := r.existing + 1 }
  | .saved bytes =>
    { r with downloaded := r.downloaded + 1, bytesWritten := r.bytesWritten + bytes }
  | .failed f =>
    { r with failed := r.failed + 1, failures := r.failures ++ [(p.postId, f.message)] }

def completedEvent (r : DownloadReport) : Json.Members :=
  [("collections", .int r.collections), ("downloaded", .int r.downloaded),
    ("existing", .int r.existing), ("failed", .int r.failed),
    ("bytes_written", .int r.bytesWritten)]

end DownloadReport

namespace FileFetcher

/-- A post saved under a path. A failure of the board is an outcome; all others are not caught. -/
def save (fetcher : FileFetcher σ) (url : String) (target : Path) : Run σ Saving := do
  if ← fetcher.exists? target then pure .existing
  else
    tryCatch (do pure (.saved (← fetcher.fetch url target))) fun f =>
      if f.kind = .api then pure (.failed f) else throw f

def tellSaving (journal : Journal σ) (p : GrabbedPost) (target : Path) : Saving → Run σ Unit
  | .existing =>
    journal.tell .debug "file_exists" [("post_id", .int p.postId), ("path", .string target.text)]
  | .saved bytes =>
    journal.tell .debug "file_saved"
      [("post_id", .int p.postId), ("path", .string target.text), ("bytes", .int bytes)]
  | .failed f =>
    journal.tellFailure "download_failed" f [("post_id", .int p.postId), ("url", .string p.url)]

def savePosts (fetcher : FileFetcher σ) (journal : Journal σ) (directory : Path) :
    List GrabbedPost → DownloadReport → Run σ DownloadReport
  | [], report => pure report
  | p :: rest, report => do
    let target := directory.child (cleanComponent p.name)
    let saving ← fetcher.save p.url target
    tellSaving journal p target saving
    fetcher.savePosts journal directory rest (report.count p saving)

def saveCollection (fetcher : FileFetcher σ) (journal : Journal σ) (root : Path) (c : Collection)
    (report : DownloadReport) : Run σ DownloadReport := do
  if c.posts.isEmpty then pure report
  else
    let directory := c.directory root
    let journal := journal.within [("collection", .string c.label)]
    journal.tell .info "collection_download_started"
      [("directory", .string directory.text), ("posts", .int c.size),
        ("total_bytes", .int c.totalBytes)]
    fetcher.savePosts journal directory c.posts
      { report with collections := report.collections + 1 }

def download (fetcher : FileFetcher σ) (journal : Journal σ) (root : Path) (cs : List Collection) :
    Run σ DownloadReport := do
  let report ← cs.foldlM (fun report c => fetcher.saveCollection journal root c report) {}
  journal.tell .info "download_completed" report.completedEvent
  pure report

end FileFetcher

def Client.fetcher (c : Client) : FileFetcher World where
  exists? := fun p => World.inspect (·.exists? p)
  fetch := fun url target => do pure (← c.downloadFile url target)

end Booru
