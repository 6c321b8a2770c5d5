import Intake.Proofs.Report.Recording

namespace Intake

namespace Report

variable {r : Report}

end Report

namespace Recording

end Recording

end Intake
