/-!
# Signature entries

A jar is signed when it holds a signature entry: a file directly under `META-INF/`
whose name, in upper case, starts with `SIG-` or ends in `.SF`, `.RSA`, `.DSA` or `.EC`
after a non-empty stem.
-/

namespace JarDeploy.Jar

set_option autoImplicit false

/-- The directory of a jar's metadata. -/
def metaDir : String := "META-INF/"

/-- The entry that holds the manifest. -/
def manifestEntry : String := "META-INF/MANIFEST.MF"

/-- Extensions of signature files. -/
def signatureExtensions : List String := ["SF", "RSA", "DSA", "EC"]

/-- Is the entry name a signature file? -/
def isSignatureEntry (name : String) : Bool :=
  if !name.startsWith metaDir then false
  else
    let file := name.drop metaDir.length |>.toString
    if file.isEmpty || file.contains '/' then false
    else
      let upper := file.map Char.toUpper
      if upper.startsWith "SIG-" then true
      else
        match upper.splitOn "." |>.reverse with
        | [] | [_] => false
        | ext :: before => !(".".intercalate before.reverse).isEmpty && signatureExtensions.contains ext

end JarDeploy.Jar
