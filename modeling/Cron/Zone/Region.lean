import Cron.Zone.Rule

/-!
Regions with clocks of their own, by name.
-/
namespace Cron

/-- A region and its clocks. -/
structure Region where
  name : String
  rule : ClockRule
deriving Repr, DecidableEq

namespace Region

def hm (hours minutes : Int) : Int := 3600 * hours + 60 * minutes

/-- North America: from the second Sunday of March to the first of November. -/
def northAmerica (standard : Int) : ClockRule :=
  .yearly standard (standard + 3600) ⟨3, 2, 0, 7200⟩ ⟨11, 1, 0, 7200⟩

/-- Europe: from the last Sunday of March to the last of October, at one o'clock of UTC. -/
def europe (standard : Int) : ClockRule :=
  .yearly standard (standard + 3600) ⟨3, 5, 0, 3600 + standard⟩ ⟨10, 5, 0, 7200 + standard⟩

def all : List Region :=
  [⟨"EST5EDT", northAmerica (hm (-5) 0)⟩,
   ⟨"America/New_York", northAmerica (hm (-5) 0)⟩,
   ⟨"America/St_Johns", northAmerica (-(hm 3 30))⟩,
   ⟨"America/Santiago",
     .yearly (hm (-4) 0) (hm (-3) 0) ⟨9, 1, 6, hm 24 0⟩ ⟨4, 1, 6, hm 24 0⟩⟩,
   ⟨"GB", europe 0⟩,
   ⟨"Europe/Dublin", europe 0⟩,
   ⟨"Europe/Berlin", europe (hm 1 0)⟩,
   ⟨"GMT", .constant 0⟩,
   ⟨"UTC", .constant 0⟩,
   ⟨"Etc/UTC", .constant 0⟩,
   ⟨"Etc/GMT+5", .constant (hm (-5) 0)⟩,
   ⟨"Etc/GMT-14", .constant (hm 14 0)⟩,
   ⟨"Japan", .constant (hm 9 0)⟩,
   ⟨"Asia/Tokyo", .constant (hm 9 0)⟩,
   ⟨"Asia/Kathmandu", .constant (hm 5 45)⟩,
   ⟨"Asia/Kolkata", .constant (hm 5 30)⟩,
   ⟨"Africa/Cairo", .yearly (hm 2 0) (hm 3 0) ⟨4, 5, 5, 0⟩ ⟨10, 5, 4, hm 24 0⟩⟩,
   ⟨"Antarctica/Troll", .yearly 0 (hm 2 0) ⟨3, 5, 0, hm 1 0⟩ ⟨10, 5, 0, hm 3 0⟩⟩,
   ⟨"Australia/Lord_Howe",
     .yearly (hm 10 30) (hm 11 0) ⟨10, 1, 0, hm 2 0⟩ ⟨4, 1, 0, hm 2 0⟩⟩,
   ⟨"Pacific/Chatham",
     .yearly (hm 12 45) (hm 13 45) ⟨9, 5, 0, hm 2 45⟩ ⟨4, 1, 0, hm 3 45⟩⟩,
   ⟨"Pacific/Kiritimati", .constant (hm 14 0)⟩,
   -- the thirtieth of December 2011 was left out, and the saving time then in force ended in March
   ⟨"Pacific/Apia",
     .dated (hm (-10) 0)
       [(86400 * Date.toDay ⟨2011, 12, 30⟩ + 36000, hm 14 0),
        (86400 * Date.toDay ⟨2012, 3, 31⟩ + 50400, hm 13 0)]⟩]

/-- The region of a name; capitals count. -/
def ofName? (name : String) : Option Region := all.find? fun region => region.name = name

def universal : Region := ⟨"UTC", .constant 0⟩

end Region

end Cron
