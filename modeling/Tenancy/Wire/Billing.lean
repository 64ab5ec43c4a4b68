import Tenancy.Billing.Record
import Tenancy.Billing.Scavenger
import Tenancy.Wire.Scalar

/-!
# Wire forms of billing

Partner records, the configuration of the scavenger and its reports as JSON.
-/

namespace Tenancy

open Json

def RecordKind.format : Format RecordKind := .choice RecordKind.all RecordKind.text

def PartnerRecord.format : Format PartnerRecord :=
  (Format.record "PartnerRecord"
    (.cons (.required "id" .signed)
      (.cons (.required "kind" RecordKind.format)
        (.cons (.required "name" .text)
          (.cons (.omittable "email" .text)
            (.cons (.required "reference" .text)
              (.cons (.omittable "parent_id" .signed)
                (.cons (.defaulted "marker" .text "")
                  (.cons (.required "created_at" Time.format) .nil))))))))).imap
    (fun (id, kind, name, email, reference, parentId, marker, createdAt, ()) =>
      ⟨id, kind, name, email, reference, parentId, marker, createdAt⟩)
    (fun r =>
      (r.id, r.kind, r.name, r.email, r.reference, r.parentId, r.marker, r.createdAt, ()))

def ScavengerConfig.format : Format ScavengerConfig :=
  (Format.record "ScavengerConfig"
    (.cons (.required "grace_period_secs" .word)
      (.cons (.required "interval_secs" .word) (.cons (.required "enabled" .bool) .nil)))).imap
    (fun (gracePeriodSecs, intervalSecs, enabled, ()) => ⟨gracePeriodSecs, intervalSecs, enabled⟩)
    (fun c => (c.gracePeriodSecs, c.intervalSecs, c.enabled, ()))

def SweepReport.format : Format SweepReport :=
  (Format.record "SweepReport"
    (.cons (.required "examined" .size)
      (.cons (.required "deleted" .size) (.cons (.required "retained" .size) .nil)))).imap
    (fun (examined, deleted, retained, ()) => ⟨examined, deleted, retained⟩)
    (fun r => (r.examined, r.deleted, r.retained, ()))

end Tenancy
