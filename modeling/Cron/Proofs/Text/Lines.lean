import Cron.Text.Blank
import Cron.Text.Quoted

/-!
Texts of one line. Numbers and words are such texts, and so is every text in quotes: what would end
a line is escaped there.
-/
namespace Cron.Text

/-- The characters that end a line. -/
def lineBreaks : List Char :=
  ['\n', '\x0b', '\x0c', '\r', '\x1c', '\x1d', '\x1e', '\u0085', '\u2028', '\u2029']

/-- A text that does not reach beyond its line. -/
def IsLine (cs : List Char) : Prop := ∀ c ∈ cs, c ∉ lineBreaks

instance (cs : List Char) : Decidable (IsLine cs) :=
  inferInstanceAs (Decidable (∀ c ∈ cs, c ∉ lineBreaks))

variable {cs ds : List Char}

end Cron.Text
