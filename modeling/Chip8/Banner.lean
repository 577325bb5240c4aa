/-!
# Name and banner

The texts by which the program names itself: in window titles, in reports on a halted machine, and
in the line that it prints first.
-/

namespace Chip8

/-- The name of the program. -/
def appName : String := "Chippy"

/-- The opening of the banner and of a report. -/
def appIntro : String := appName ++ " V0.3.0 -- "

/-- The line that the program prints first. -/
def banner : String :=
  appIntro ++
    "Copyright (C) 2024 Chippy Authors, licensed under GNU Affero General Public License v3.0"

end Chip8
