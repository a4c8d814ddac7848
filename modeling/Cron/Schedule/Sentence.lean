import Cron.Field.Phrase
import Cron.Schedule.Normal

/-!
Schedules in English: one sentence, and a table with a row for each field. Either is shown only if
nothing that it looks up is missing.
-/
namespace Cron.Schedule

variable {m : Type → Type} [Monad m] (look : LookUps m)

def timeWordsBy (minute hour : Field) : m String :=
  if minute.isWildcard then
    if hour.isWildcard then pure "Every minute"
    else if hour.values.length = 1 then do
      let first ← look.first hour
      pure ("Every minute past hour " ++ toString first)
    else if hour.isRun then do
      let first ← look.first hour
      let last ← look.last hour
      pure ("Every minute from " ++ hourText first ++ " through " ++ hourText last)
    else pure ("Every minute past hours " ++ hour.numbers)
  else if hour.isWildcard then
    if minute.values.length = 1 then do
      let first ← look.first minute
      pure ("At minute " ++ toString first ++ " of every hour")
    else pure ("At minutes " ++ minute.numbers ++ " of every hour")
  else if minute.values.length = 1 then do
    let first ← look.first minute
    pure ("At " ++ Text.joined ", " (hour.values.map fun (h : Nat) => timeText h first))
  else pure ("At minute " ++ minute.numbers ++ " past hour " ++ hour.numbers)

/-- The words for the days of the month and of the week. -/
def dayWordsBy (dayOfMonth dayOfWeek : Field) : m String :=
  if dayOfMonth.isRestricted && dayOfWeek.isRestricted then do
    let monthly ← dayOfMonth.phraseBy look
    let weekly ← dayOfWeek.phraseBy look
    pure (" on " ++ monthly ++ " and on " ++ weekly)
  else if dayOfMonth.isRestricted then do
    let monthly ← dayOfMonth.phraseBy look
    pure (" on the " ++ monthly)
  else if !dayOfWeek.isRestricted then pure ""
  else if dayOfWeek.values = [1, 2, 3, 4, 5] then pure " on every weekday"
  else if dayOfWeek.values = [0, 6] then pure " on weekends"
  else if dayOfWeek.isRun then do
    let first ← look.text .dayOfWeek (← look.first dayOfWeek)
    let last ← look.text .dayOfWeek (← look.last dayOfWeek)
    pure (" on every day-of-week from " ++ first ++ " through " ++ last)
  else do
    let texts ← dayOfWeek.values.mapM (look.text .dayOfWeek)
    pure (" on " ++ Text.joined ", " texts)

def monthWordsBy (month : Field) : m String :=
  if month.isWildcard then pure ""
  else if month.values.length = 1 then do
    let name ← look.text .month (← look.first month)
    pure (" in " ++ name)
  else if month.isRun then do
    let first ← look.text .month (← look.first month)
    let last ← look.text .month (← look.last month)
    pure (" from " ++ first ++ " through " ++ last)
  else do
    let texts ← month.values.mapM (look.text .month)
    pure (" in " ++ Text.joined ", " texts)

def sentenceBy (s : Schedule) : m String := do
  let time ← timeWordsBy look s.minute s.hour
  let days ← dayWordsBy look s.dayOfMonth s.dayOfWeek
  let months ← monthWordsBy look s.month
  pure (time ++ days ++ months ++ ".")

/-- The sentence of a schedule, if all that it names is there. -/
def sentence? (s : Schedule) : Option String := s.sentenceBy .checked

def sentence (s : Schedule) : String := s.sentenceBy .plain

/-- A row of the table: a field's title, the word given for it, the numbers it may hold, its
phrase, and its values. -/
structure Row where
  title : String
  word : String
  bounds : String
  phrase : String
  values : String
deriving Repr, DecidableEq

def capitalized (s : String) : String :=
  match s.toList with
  | [] => s
  | c :: rest => String.ofList (c.toUpper :: rest)

def rowPhraseBy (field : Field) : m String :=
  if field.isWildcard then pure ("Every " ++ field.name.title.toLower)
  else if field.name = .minute ∨ field.name = .hour then do
    let phrase ← field.phraseBy look
    pure (capitalized phrase)
  else field.phraseBy look

/-- The row of a field. The word is shown in capitals. -/
def rowBy (field : Field) (word : String) : m Row := do
  let phrase ← rowPhraseBy look field
  pure
    { title := field.name.title
      word := word.toUpper
      bounds := toString field.name.low ++ "-" ++ toString field.name.inputHigh
      phrase
      values := if field.isWildcard then "*" else field.numbers }

/-- The rows of a schedule, in the order of its expression, if all that they name is there. -/
def breakdown? (s : Schedule) : Option (List Row) :=
  (s.fields.zip s.tokens).mapM fun (field, word) => rowBy .checked field word

def row (field : Field) (word : String) : Row := rowBy .plain field word

@[simp]
theorem row_values (field : Field) (word : String) :
    (row field word).values = if field.isWildcard then "*" else field.numbers := rfl

def breakdown (s : Schedule) : List Row := List.zipWith row s.fields s.tokens

end Cron.Schedule
