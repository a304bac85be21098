/-!
# Patterns for beginnings, ends and parts

The patterns that tell whether a text begins with, ends with or contains a given one. The given text
is put into the pattern as it is.
-/

namespace SqlScribe.LikePattern

/-- The pattern for a beginning. -/
def startingWith (s : String) : String := s ++ "%"

/-- The pattern for an end. -/
def endingWith (s : String) : String := "%" ++ s

/-- The pattern for a part. -/
def containing (s : String) : String := "%" ++ s ++ "%"

end SqlScribe.LikePattern
