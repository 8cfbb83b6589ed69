import MachineTuning.Profile
import MachineTuning.Text.Utf8
import MachineTuning.UnitFile.Tuning

namespace MachineTuning

/-!
# Sample profiles and scripts

Small inputs that exercise each part of a profile, and stand-ins for the two scripts.
-/

namespace Profile

/-- Isolated CPUs, one size of huge pages and the real-time kernel. -/
def realTimeSample : Profile :=
  (((new "example" "0-1").withIsolated "2-3").withHugePages ⟨none, [⟨"1G", 4⟩]⟩).withRealTimeKernel
    (some true)

/-- Only the required parts. -/
def minimalSample : Profile :=
  new "minimal" "0"

/-- A default page size and two sizes of pages. -/
def mixedPagesSample : Profile :=
  ((new "mixed" "0,4").withIsolated "1-3,5-7").withHugePages
    ⟨some "1G", [⟨"1G", 16⟩, ⟨"2M", 1024⟩]⟩

end Profile

namespace Script

/-- A stand-in for the script that applies the tuning. -/
def samplePreBootTuning : List UInt8 :=
  Text.utf8 ("#!/usr/bin/env bash\nset -euo pipefail\necho \"housekeeping cpus: $" ++
    "\x7bNON_ISOLATED_CPUS\x7d\"\n")

/-- A stand-in for the script that reboots the node. -/
def sampleReboot : List UInt8 :=
  Text.utf8 "#!/usr/bin/env bash\nset -euo pipefail\necho reboot\n"

/-- The stand-ins by the name of their script. -/
def samples : List (String × List UInt8) :=
  [(preBootTuning, samplePreBootTuning), (reboot, sampleReboot)]

end Script

end MachineTuning
