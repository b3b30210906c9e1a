/-! Fields of a minimum width, counted in characters. -/
namespace Chronometry.Text

/-- Right-aligned in a field of the given width; longer texts are kept whole. -/
def alignRight (width : Nat) (s : String) : String := "".pushn ' ' (width - s.length) ++ s

def alignLeft (width : Nat) (s : String) : String := s.pushn ' ' (width - s.length)

end Chronometry.Text
