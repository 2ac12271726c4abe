import PlainSheets.Text.Lower

/-!
When two characters are one letter to a reader who ignores case. The comparison is between single
characters, so no letter ever equals a sequence of letters.
-/
namespace PlainSheets.Text

/-- Small letters that differ in form only, each with its other forms. -/
private def otherForms : List (Nat × List Nat) :=
  [(105, [305]), (115, [383]), (181, [956]), (305, [105]), (383, [115]), (837, [953, 8126]),
   (912, [8147]), (944, [8163]), (946, [976]), (949, [1013]), (952, [977]), (953, [837, 8126]),
   (954, [1008]), (956, [181]), (960, [982]), (961, [1009]), (962, [963]), (963, [962]),
   (966, [981]), (976, [946]), (977, [952]), (981, [966]), (982, [960]), (1008, [954]),
   (1009, [961]), (1013, [949]), (1074, [7296]), (1076, [7297]), (1086, [7298]), (1089, [7299]),
   (1090, [7300, 7301]), (1098, [7302]), (1123, [7303]), (7296, [1074]), (7297, [1076]), (7298, [1086]),
   (7299, [1089]), (7300, [1090, 7301]), (7301, [1090, 7300]), (7302, [1098]), (7303, [1123]), (7304, [42571]),
   (7777, [7835]), (7835, [7777]), (8126, [837, 953]), (8147, [912]), (8163, [944]), (42571, [7304]),
   (64261, [64262]), (64262, [64261])]

def smallForm (c : Char) : Char := if c = dottedCapitalI then 'i' else lowerChar c

def sameLetter (a b : Char) : Bool :=
  smallForm a == smallForm b ||
    ((otherForms.lookup (smallForm a).toNat).getD []).contains (smallForm b).toNat

def sameLetters : List Char → List Char → Bool
  | [], [] => true
  | a :: as, b :: bs => sameLetter a b && sameLetters as bs
  | _, _ => false

def startsAs : List Char → List Char → Bool
  | [], _ => true
  | _ :: _, [] => false
  | a :: as, b :: bs => sameLetter a b && startsAs as bs

def occursIn (part : List Char) : List Char → Bool
  | [] => startsAs part []
  | c :: rest => startsAs part (c :: rest) || occursIn part rest

end PlainSheets.Text
