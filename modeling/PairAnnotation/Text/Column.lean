/-
# Columns

Plain text tables are set in columns whose width counts characters.  A cell that is
too wide is written in full and pushes the rest of its line to the right.
-/

namespace PairAnnotation
namespace Text

/-- Fill a cell with blanks up to a width; a wider cell is left as it is. -/
def padRight (width : Nat) (cell : String) : String :=
  cell ++ String.ofList (List.replicate (width - cell.length) ' ')

/-- A cell is filled up to the width of its column, and a longer one is left as it is. -/
theorem length_padRight (width : Nat) (cell : String) :
    (padRight width cell).length = max width cell.length := by
  simp [padRight]
  omega

end Text
end PairAnnotation
