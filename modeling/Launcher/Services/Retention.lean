import Launcher.Lib.Coroutines
import Launcher.Database.Statements

set_option autoImplicit false

/-! # `RetentionService`

The collector of `services/RetentionService.cpp`: list the blobs nothing references, and for
each one delete the row, then the file, then refund the account that paid for it. The listing
is read once per pass; each later step works from the listed copy. -/

namespace Launcher

open Launcher.Lib

structure SweepReport where
  collected : Nat
  reclaimedBytes : Nat
  skipped : Nat
  deriving DecidableEq, Repr

/-- Where `collectUnreferencedBlobs` is suspended. `blob` is the entry of the listing the loop
is at, `deleted` the row that its `DELETE` removed. -/
inductive CollectBlobs
  | findUnreferenced
  | deleteIfUnreferenced (blob : CollectableBlob) (rest : List CollectableBlob)
      (report : SweepReport)
  | discard (deleted : BlobRow) (blob : CollectableBlob) (rest : List CollectableBlob)
      (report : SweepReport)
  | releaseUpload (deleted : BlobRow) (blob : CollectableBlob) (userId : Uuid)
      (rest : List CollectableBlob) (report : SweepReport)
  | finished (report : SweepReport)

/-- The loop over the listing. -/
def CollectBlobs.loop : List CollectableBlob → SweepReport → CollectBlobs
  | [], report => .finished report
  | blob :: rest, report => .deleteIfUnreferenced blob rest report

/-- The end of one round of the loop. -/
def CollectBlobs.collected (blob : CollectableBlob) (rest : List CollectableBlob)
    (report : SweepReport) : CollectBlobs :=
  .loop rest { report with
    collected := report.collected + 1
    reclaimedBytes := report.reclaimedBytes + blob.sizeBytes }

def CollectBlobs.next (env : Env) : CollectBlobs → Suspended Call CollectBlobs
  | .findUnreferenced =>
      .call (.findUnreferenced env.blobGrace env.retention.batchSize) fun candidates =>
        .loop candidates ⟨0, 0, 0⟩
  | .deleteIfUnreferenced blob rest report =>
      .call (.deleteIfUnreferenced blob.sha256 env.blobGrace) fun
        | none => .loop rest { report with skipped := report.skipped + 1 }
        | some deleted => .discard deleted blob rest report
  | .discard deleted blob rest report =>
      -- `pathFor` is empty for a malformed hash, and removing the empty path does nothing
      .call (.discard ((pathFor blob.sha256).getD [])) fun _ =>
        match blob.uploadedByUserId with
        | none => .collected blob rest report
        | some userId => .releaseUpload deleted blob userId rest report
  | .releaseUpload _ blob userId rest report =>
      .call (.releaseUpload userId blob.sizeBytes) fun _ => .collected blob rest report
  | .finished _ => .done

end Launcher
