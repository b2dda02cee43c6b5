import Turtle.Proofs.Json.Spelling
import Turtle.Proofs.Json.Value

/-! A triple survives its JSON form.
Each component is written with the fewest digits that identify it and read by way of doubles. Rounding
twice brings it back all the same. -/
namespace Turtle

open Json

def Json.Item.bare (body : List Char) : Item := ⟨.none, body, .none⟩

theorem Vec.json_eq_arrayText (v : Vec) : v.json.toList = arrayText .none
    [.bare (v.x.json .jsonSingle).toList, .bare (v.y.json .jsonSingle).toList,
      .bare (v.z.json .jsonSingle).toList] := by
  simp [Vec.json, arrayText, inside, Item.bare, Blanks.none]

theorem Vec.tripleOfText_json {v : Vec} (finite : v.isFinite = true) :
    tripleOfText v.json = .ok v := by
  simp only [Vec.isFinite, Bool.and_eq_true] at finite
  have reads {x : Single} (proper : x.isFinite = true) :
      Reads readSingle (Item.bare (x.json .jsonSingle).toList).body (some x) := by
    obtain ⟨n, text, value⟩ := exists_written_json proper
    rw [← value]
    simpa [Item.bare, ← text] using n.readsSingle
  obtain ⟨place, found⟩ := readTriple_items .none [] .start .none
    (.cons (reads finite.1.1) (.cons (reads finite.1.2) (.cons (reads finite.2) .nil)))
  have whole : readTriple (.ofText v.json.toList) = .ok (v, ⟨[], place⟩) := by
    simpa [Cursor.ofText, Vec.json_eq_arrayText, Blanks.none] using found
  simp only [tripleOfText, whole, bind, Except.bind]
  rfl

theorem Vec.tripleOfText_json_extremes :
    let v : Vec := ⟨.ofBits 0x3DCCCCCD, .ofBits 0x80000001, .ofBits 0x7F7FFFFF⟩
    v.isFinite = true ∧ tripleOfText v.json = .ok v :=
  ⟨by decide +kernel, Vec.tripleOfText_json (by decide +kernel)⟩

end Turtle
