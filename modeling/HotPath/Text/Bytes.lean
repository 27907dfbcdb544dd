/-!
# Places in a text, counted in bytes

A character takes up one to four bytes. A place in a text can be given by the number of bytes in
front of it, as long as it does not lie inside a character.

`slice?_append` says that between the places around a part of a text there is just that part.
-/

namespace HotPath.Text

/-- The number of bytes that a text takes up. -/
def byteSize (text : List Char) : Nat := text.foldr (fun c size => c.utf8Size + size) 0

@[simp] theorem byteSize_nil : byteSize [] = 0 := rfl

@[simp] theorem byteSize_cons (c : Char) (text : List Char) :
    byteSize (c :: text) = c.utf8Size + byteSize text := rfl

@[simp] theorem byteSize_append (front back : List Char) :
    byteSize (front ++ back) = byteSize front + byteSize back := by
  induction front with
  | nil => simp
  | cons c front ih => simp [ih, Nat.add_assoc]

/-- Split a text behind its first `count` bytes. -/
def splitBytes? : (count : Nat) → List Char → Option (List Char × List Char)
  | 0, text => some ([], text)
  | _ + 1, [] => none
  | count + 1, c :: text =>
    if c.utf8Size ≤ count + 1 then
      (splitBytes? (count + 1 - c.utf8Size) text).map fun (front, back) => (c :: front, back)
    else none

theorem splitBytes?_append (front back : List Char) :
    splitBytes? (byteSize front) (front ++ back) = some (front, back) := by
  induction front with
  | nil => simp [splitBytes?]
  | cons c front ih =>
    obtain ⟨count, size⟩ : ∃ count, byteSize (c :: front) = count + 1 :=
      ⟨byteSize (c :: front) - 1, by have := c.utf8Size_pos; simp; omega⟩
    have left : count + 1 - c.utf8Size = byteSize front := by
      rw [← size, byteSize_cons]
      omega
    have fits : c.utf8Size ≤ count + 1 := by
      rw [← size, byteSize_cons]
      omega
    rw [size, List.cons_append, splitBytes?, if_pos fits, left, ih]
    rfl

/-- The part of a text between two places. -/
def slice? (text : List Char) (start stop : Nat) : Option (List Char) := do
  let (_, back) ← splitBytes? start text
  let (front, _) ← splitBytes? (stop - start) back
  some front

theorem slice?_append (front part back : List Char) :
    slice? (front ++ (part ++ back)) (byteSize front) (byteSize (front ++ part)) = some part := by
  simp [slice?, splitBytes?_append]

end HotPath.Text
