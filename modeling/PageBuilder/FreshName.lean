/-!
Free names close to a wanted one: the wanted name itself, or else the wanted name with the least
positive number behind it that makes it free.
-/

namespace PageBuilder.FreshName

def numbered (base : String) (number : Nat) : String := base ++ toString number

def search (base : String) (taken : List String) (number : Nat) : Nat → String
  | 0 => numbered base number
  | count + 1 =>
      if taken.contains (numbered base number) then search base taken (number + 1) count
      else numbered base number

/-- One of the first numbers is free, as `taken` cannot hold more names than it has. -/
def choose (base : String) (taken : List String) : String :=
  if taken.contains base then search base taken 1 taken.length else base

def propose (wanted : String) (taken : List String) : String :=
  choose (if wanted.isEmpty then "node" else wanted) taken

end PageBuilder.FreshName
