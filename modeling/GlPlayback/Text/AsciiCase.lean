/-!
Letters without regard to case. Only the letters of ASCII have two cases here.
-/
namespace GlPlayback.Text

def lowerAscii (s : String) : String :=
  String.ofList (s.toList.map Char.toLower)

def sameLetters (a b : String) : Bool :=
  a.toList.map Char.toLower == b.toList.map Char.toLower

end GlPlayback.Text
