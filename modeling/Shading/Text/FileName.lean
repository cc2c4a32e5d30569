/-!
# Names of files

Messages show the last component of a path: what follows its last slash. A path that ends in a
slash has an empty last component, and a backslash divides nothing.
-/

namespace Shading.Text

/-- What follows the last slash of a path, or all of it if there is none. -/
def baseName (path : String) : String :=
  String.ofList (path.toList.reverse.takeWhile (· != '/')).reverse

end Shading.Text
