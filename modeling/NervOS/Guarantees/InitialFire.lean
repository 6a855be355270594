/-
The first instant of a new or edited schedule: strictly after now, and for a cron the
first one that a matching reading resolves to, unless the clock was set back over a match.
-/
import NervOS.Guarantees.CronDecisions

namespace NervOS

variable {calendar : Calendar} {expression : CronExpression} {timezone : TimezoneName}
  {Matches : Wall → Prop} {zone : Zone}

end NervOS
