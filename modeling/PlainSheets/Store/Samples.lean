import PlainSheets.Binary64.Decimal
import PlainSheets.Store.Ids

/-!
Sample sheets to fill a store with.
-/
namespace PlainSheets

structure Sample where
  name : String
  columns : List (String × Kind)
  rows : List Cell

namespace Sample

def day (year month day : Nat) : Cell :=
  match Date.of? year month day with
  | some d => .moment ⟨d, Clock.midnight, some Offset.utc⟩
  | none => .null

def price (hundredths : Nat) : Cell := .real (Binary64.ofDecimal false ⟨hundredths, -2⟩)

private def product (name category : String) (hundredths : Nat) (quantity : Int) (date : Cell)
    (inStock : Bool) : Cell :=
  .named [("Product", .text name), ("Category", .text category), ("Price", price hundredths),
    ("Quantity", .integer quantity), ("Date", date), ("InStock", .flag inStock)]

def sales : Sample :=
  ⟨"Sales Data",
    [("Product", .text), ("Category", .text), ("Price", .number), ("Quantity", .number),
      ("Date", .date), ("InStock", .flag)],
    [product "Laptop" "Electronics" 129999 5 (day 2023 12 1) true,
      product "Smartphone" "Electronics" 89999 10 (day 2023 12 2) true,
      product "Headphones" "Accessories" 19999 15 (day 2023 12 3) true,
      product "Monitor" "Electronics" 34999 3 (day 2023 12 4) false,
      product "Keyboard" "Accessories" 8999 8 (day 2023 12 5) true]⟩

private def employee (name department : String) (salary : Int) (hired : Cell) (fullTime : Bool) :
    Cell :=
  .named [("Name", .text name), ("Department", .text department), ("Salary", .integer salary),
    ("HireDate", hired), ("FullTime", .flag fullTime)]

def employees : Sample :=
  ⟨"Employee Records",
    [("Name", .text), ("Department", .text), ("Salary", .number), ("HireDate", .date),
      ("FullTime", .flag)],
    [employee "John Smith" "Engineering" 85000 (day 2022 1 15) true,
      employee "Sarah Johnson" "Marketing" 75000 (day 2022 3 10) true,
      employee "Michael Brown" "Finance" 90000 (day 2021 11 5) true,
      employee "Emily Davis" "Design" 65000 (day 2023 2 20) false]⟩

private def project (name client : String) (budget : Int) (start finish : Cell) (completed : Bool) :
    Cell :=
  .named [("ProjectName", .text name), ("Client", .text client), ("Budget", .integer budget),
    ("StartDate", start), ("EndDate", finish), ("Completed", .flag completed)]

def projects : Sample :=
  ⟨"Project Tracker",
    [("ProjectName", .text), ("Client", .text), ("Budget", .number), ("StartDate", .date),
      ("EndDate", .date), ("Completed", .flag)],
    [project "Website Redesign" "ABC Corp" 15000 (day 2023 10 1) (day 2023 12 15) false,
      project "Mobile App Development" "XYZ Inc" 50000 (day 2023 9 15) (day 2024 3 15) false,
      project "Brand Identity" "Acme Co" 8000 (day 2023 11 1) (day 2023 12 1) true]⟩

def all : List Sample := [sales, employees, projects]

end Sample

namespace Store

/-- Makes the sheets of samples one after the other, up to the first one that cannot be made. -/
def createSamples (s : Store) (ids : IdSource) (now : Moment) :
    List Sample → Step Store (List Sheet) × IdSource
  | [] => (⟨s, .ok []⟩, ids)
  | sample :: rest =>
    let columns := sample.columns.map fun c => (⟨some c.1, c.2, none⟩ : Column)
    let made := s.create ids.fresh now (some sample.name) columns sample.rows
    let ids := ids.afterSheet made.result
    match made.result with
    | .error f => (⟨made.state, .error f⟩, ids)
    | .ok sheet =>
      let (step, ids) := createSamples made.state ids now rest
      (step.map (sheet :: ·), ids)

def seed (s : Store) (ids : IdSource) (now : Moment) (clear : Bool) :
    Step Store (List Sheet) × IdSource :=
  if clear then
    let cleared := s.clear
    match cleared.result with
    | .error f => (⟨cleared.state, .error f⟩, ids)
    | .ok _ => createSamples cleared.state ids now Sample.all
  else createSamples s ids now Sample.all

end Store

end PlainSheets
