import ProgramAudit.Audit.Run
import ProgramAudit.Traffic.Stored

/-! The plan of an audit read back from its written form. -/

namespace ProgramAudit.Audit

namespace Plan

def limitOr (name : String) (fallback : Option Number) (value : Json) : Option Number :=
  (value.get? name).elim fallback Json.number?

def ofJson (config fetch kinds : Json) : Plan :=
  let base : Plan := {}
  { stageTimeout := limitOr "stage_timeout_sec" base.stageTimeout config
    fetchTimeout := limitOr "fetch_stage_timeout_sec" base.fetchTimeout config
    fetch := .ofJson fetch
    network := config.textOr "network" base.network
    kinds := .ofJson kinds }

end Plan

end ProgramAudit.Audit
