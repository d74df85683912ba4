/-!
# Flags

The words by which a setting or a request may spell a truth value, in any case of ASCII letters.
-/
namespace ElementBinding.Text

/-- The words for no. -/
def negativeWords : List String := ["0", "off", "f", "false", "n", "no"]

/-- The words for yes. -/
def affirmativeWords : List String := ["1", "on", "t", "true", "y", "yes"]

def readFlag? (word : String) : Option Bool :=
  let plain := String.ofList (word.toList.map (·.toLower))
  if negativeWords.contains plain then some false
  else if affirmativeWords.contains plain then some true
  else none

end ElementBinding.Text
