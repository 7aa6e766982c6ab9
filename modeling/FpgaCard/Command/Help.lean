import FpgaCard.Command.Words

/-!
# Help

The help on each command: what it does, how it is used, what it takes.
-/

namespace FpgaCard.Command.Help

abbrev Item := String × String

structure Page where
  about : String
  usage : String
  commands : List Item := []
  arguments : List Item := []
  options : List Item := []

/-- A list under a heading, its second column aligned. -/
def itemList (heading : String) (items : List Item) : String :=
  let width := (items.map (·.1.length)).foldl max 0
  let line (item : Item) : String :=
    "  " ++ item.1 ++ String.ofList (List.replicate (width - item.1.length) ' ') ++ "  " ++ item.2 ++ "\n"
  if items.isEmpty then "" else "\n" ++ heading ++ ":\n" ++ String.join (items.map line)

def Page.text (p : Page) : String :=
  p.about ++ "\n\nUsage: " ++ p.usage ++ "\n" ++ itemList "Commands" p.commands ++
    itemList "Arguments" p.arguments ++ itemList "Options" p.options

def helpOption : Item := ("-h, --help", "Print help")

def helpCommand : Item := ("help", "Print this message or the help of the given subcommand(s)")

def offsetOption : Item :=
  ("    --offset <OFFSET>", "Byte offset within the region [default: 0]")

def placeArguments : List Item :=
  [("<CARD>", "Board number or PCIe address"),
    ("<REGION>", "Region name (e.g. ddr0) or full node name")]

def addressArgument : Item := ("<PCIE_ADDR>", "PCIe address (e.g. 0000:03:00.0)")

def helpPage (names : String) : Page where
  about := helpCommand.2
  usage := names ++ " [COMMAND]..."
  arguments := [("[COMMAND]...", "Print help for the subcommand(s)")]

def pages : List (List String × Page) :=
  [([], {
      about := "AMC525 FPGA card CLI"
      usage := "amc <COMMAND>"
      commands := [("enumerate", "List all AMC525 cards"),
        ("info", "Print the device table, nodes and IOMMU group of one card"),
        ("prom", "Device table tools"),
        ("checksum", "Print the 16-bit ones' complement checksum of a file"),
        ("read", "Read card memory through a DMA region"),
        ("write", "Write a file into card memory through a DMA region"),
        ("bind-vfio", "Bind a card to vfio-pci (requires root / CAP_SYS_ADMIN)"),
        ("unbind-vfio", "Unbind a card from vfio-pci and re-bind to amc525_mbf (if loaded)"),
        ("iommu-group", "Query the IOMMU group for a card"), helpCommand]
      options := [helpOption, ("-V, --version", "Print version")] }),
    (["enumerate"], {
      about := "List all AMC525 cards", usage := "amc enumerate", options := [helpOption] }),
    (["info"], {
      about := "Print the device table, nodes and IOMMU group of one card"
      usage := "amc info <CARD>"
      arguments := [("<CARD>", "Board number (e.g. 0) or PCIe address (e.g. 0000:03:00.0)")]
      options := [helpOption] }),
    (["prom"], {
      about := "Device table tools"
      usage := "amc prom <COMMAND>"
      commands := [("dump", "Parse and print a device table"),
        ("build", "Build a device table from flags"), helpCommand]
      options := [helpOption] }),
    (["prom", "dump"], {
      about := "Parse and print a device table"
      usage := "amc prom dump [OPTIONS] [CARD]"
      arguments := [("[CARD]", "Board number or PCIe address")]
      options := [("    --software", "Dump the table of a software card with the built-in table"),
        ("    --file <FILE>", "Dump a table image from a file"),
        ("    --hex", "Also print the raw bytes"), helpOption] }),
    (["prom", "build"], {
      about := "Build a device table from flags"
      usage := "amc prom build [OPTIONS] --device <DEVICE>"
      options := [("    --device <DEVICE>", "Device name"),
        ("    --region <REGIONS>", "Memory region as name:base:length:perm, perm one of r, w, rw"),
        ("    --dma-mask <DMA_MASK>", "DMA addressing width in bits"),
        ("    --dma-align <DMA_ALIGN>", "log2 of the DMA alignment"),
        ("    --out <OUT>", "Output file; stdout if absent"),
        ("    --coe", "Emit a Xilinx .coe file instead of the binary image"),
        ("    --group <GROUP>", "Bytes per .coe word [default: 4]"), helpOption] }),
    (["checksum"], {
      about := "Print the 16-bit ones' complement checksum of a file"
      usage := "amc checksum <FILE>"
      arguments := [("<FILE>", "File to checksum")]
      options := [helpOption] }),
    (["read"], {
      about := "Read card memory through a DMA region"
      usage := "amc read [OPTIONS] --count <COUNT> <CARD> <REGION>"
      arguments := placeArguments
      options := [offsetOption, ("    --count <COUNT>", "Bytes to read"),
        ("    --out <OUT>", "Write the data to this file instead of a hex dump"), helpOption] }),
    (["write"], {
      about := "Write a file into card memory through a DMA region"
      usage := "amc write [OPTIONS] --input <INPUT> <CARD> <REGION>"
      arguments := placeArguments
      options := [offsetOption, ("    --input <INPUT>", "File holding the data"), helpOption] }),
    (["bind-vfio"], {
      about := "Bind a card to vfio-pci (requires root / CAP_SYS_ADMIN)"
      usage := "amc bind-vfio <PCIE_ADDR>"
      arguments := [addressArgument]
      options := [helpOption] }),
    (["unbind-vfio"], {
      about := "Unbind a card from vfio-pci and re-bind to amc525_mbf (if loaded)"
      usage := "amc unbind-vfio <PCIE_ADDR>"
      arguments := [addressArgument]
      options := [helpOption] }),
    (["iommu-group"], {
      about := "Query the IOMMU group for a card"
      usage := "amc iommu-group <PCIE_ADDR>"
      arguments := [addressArgument]
      options := [helpOption] }),
    (["help"], helpPage "amc help"),
    (["prom", "help"], helpPage "amc prom help")]

def text (topic : List String) : String := ((pages.lookup topic).map Page.text).getD ""

def version : String := "amc 0.3.0\n"

end FpgaCard.Command.Help
