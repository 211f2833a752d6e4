import RpiQemu.Framework.Bytes
import RpiQemu.Framework.Keyed
import RpiQemu.Framework.Struct
import RpiQemu.Framework.History
import RpiQemu.Framework.Memory
import RpiQemu.Framework.Register
import RpiQemu.Framework.Run
import RpiQemu.Framework.OnesComplement
import RpiQemu.Framework.LittleEndian
import RpiQemu.Usbip.Types
import RpiQemu.Usbip.Core
import RpiQemu.Usbip.Server
import RpiQemu.Usbip.Framing
import RpiQemu.Usbip.Device
import RpiQemu.Usbip.Machine
import RpiQemu.Usbip.Frame
import RpiQemu.Usbip.Refine
import RpiQemu.Usbip.Lanes
import RpiQemu.Usbip.Ledger
import RpiQemu.Usbip.Closing
import RpiQemu.Usbip.Stack
import RpiQemu.Usbip.Events
import RpiQemu.Usbip.ExactlyOnce
import RpiQemu.Usbip.Order
import RpiQemu.Usbip.Wakeup
import RpiQemu.Usbip.Connection
import RpiQemu.Usbip.Chunks
import RpiQemu.Usbip.Client
import RpiQemu.Usbip.SubmitCodec
import RpiQemu.Usbip.Control
import RpiQemu.Usbip.ReplyCodec
import RpiQemu.Usbip.Devlist
import RpiQemu.Usbip.Accounting
import RpiQemu.Usbip.Descriptors
import RpiQemu.Usbip.Pacing
import RpiQemu.Cfgtxt.Parser
import RpiQemu.Cfgtxt.Meaning
import RpiQemu.Cfgtxt.Include
import RpiQemu.Cfgtxt.Multivalue
import RpiQemu.Cfgtxt.Clear
import RpiQemu.Cfgtxt.Import
import RpiQemu.Genet.Device
import RpiQemu.Genet.Receive
import RpiQemu.Genet.Fill
import RpiQemu.Genet.Transmit
import RpiQemu.Genet.Progress
import RpiQemu.Genet.Registers
import RpiQemu.Genet.Lines
import RpiQemu.Genet.Mdio
import RpiQemu.Genet.Delivery
import RpiQemu.Genet.Describe
import RpiQemu.Genet.Fidelity
import RpiQemu.Genet.Checksum
import RpiQemu.Genet.Flow
import RpiQemu.Genet.Staging
import RpiQemu.Dwc2.Endpoint
import RpiQemu.Dwc2.Accounting
import RpiQemu.Dwc2.Gadget
import RpiQemu.Dwc2.Babble
import RpiQemu.Dwc2.Idle
import RpiQemu.Dwc2.Settled
import RpiQemu.Dwc2.Machine
import RpiQemu.Dwc2.Quiescent
import RpiQemu.Dwc2.Summary
import RpiQemu.Dwc2.Stages
import RpiQemu.Dwc2.Session
import RpiQemu.Dwc2.OutData
import RpiQemu.Dwc2.InData
import RpiQemu.Rng200.Device
import RpiQemu.Rng200.Interrupt
import RpiQemu.Rng200.Reader
import RpiQemu.Powermgt.Device
import RpiQemu.Powermgt.Watchdog
import RpiQemu.Powermgt.Domains
import RpiQemu.Raspi.Cmdline
import RpiQemu.Raspi.Arguments
import RpiQemu.Pcie.Host
import RpiQemu.Systmr.Compare
import RpiQemu.Sd.Erase
