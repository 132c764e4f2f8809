import BleHidUart.Lib.Run
import BleHidUart.Lib.Memory
import BleHidUart.Lib.Word
import BleHidUart.Lib.Checksum
import BleHidUart.Lib.Framing
import BleHidUart.Lib.Stream
import BleHidUart.Lib.ReadLog
import BleHidUart.Lib.Binary32
import BleHidUart.Lib.Newton
import BleHidUart.Board
import BleHidUart.Eeprom
import BleHidUart.Gyroscope
import BleHidUart.Imu.Sqrt
import BleHidUart.Imu.Pitch
import BleHidUart.Imu.Filter
import BleHidUart.Imu.Mirror
import BleHidUart.Imu.Sensor
import BleHidUart.Led
import BleHidUart.CtrlOta.Metadata
import BleHidUart.Ota.Handlers
import BleHidUart.Ota.Crc
import BleHidUart.Ota.Moves
import BleHidUart.Ota.Session
import BleHidUart.Ota.Receive
import BleHidUart.Ota.Ready
import BleHidUart.Ota.Start
import BleHidUart.Ota.Retry
import BleHidUart.Ota.Accepted
import BleHidUart.Ota.Rejected
import BleHidUart.Ota.Sender
import BleHidUart.Ota.Damage
import BleHidUart.Ota.Ack
import BleHidUart.CtrlOta.Machine
import BleHidUart.CtrlOta.Moves
import BleHidUart.CtrlOta.Transfer
import BleHidUart.CtrlOta.Progress
import BleHidUart.CtrlOta.Percent
import BleHidUart.CtrlOta.Pacing
import BleHidUart.CtrlOta.Finished
import BleHidUart.CtrlOta.EndToEnd
import BleHidUart.CtrlOta.Delivery
import BleHidUart.CtrlOta.Dialogue
import BleHidUart.Firmware.Joint
import BleHidUart.Firmware.Success
import BleHidUart.Firmware.Frozen
import BleHidUart.Firmware.Snapshot
import BleHidUart.Firmware.Notifications
import BleHidUart.V3.Bridge
import BleHidUart.V3.Handlers
import BleHidUart.V3.Checksum
import BleHidUart.V3.Parser
import BleHidUart.V2.Bridge
import BleHidUart.V2.Moves
import BleHidUart.V2.Outcome
import BleHidUart.V2.Link
import BleHidUart.V2.LockState
import BleHidUart.V3.Deframe
import BleHidUart.V3.Located
import BleHidUart.V3.McuData
import BleHidUart.V3.Resync
import BleHidUart.V3.LoneHead
import BleHidUart.Uart.Receiver
import BleHidUart.Uart.Buffer
import BleHidUart.Uart.Segments
import BleHidUart.Uart.V3Replies
import BleHidUart.Uart.Apart
import BleHidUart.Uart.CtrlReplies
import BleHidUart.Firmware.Dispatch
import BleHidUart.Firmware.Requests
import BleHidUart.Firmware.Pending
import BleHidUart.Firmware.Separate
import BleHidUart.Firmware.Reads
import BleHidUart.Firmware.Frames
import BleHidUart.Firmware.Bounds
import BleHidUart.Firmware.Machine
import BleHidUart.Firmware.Channel
import BleHidUart.Firmware.Handshake
import BleHidUart.Firmware.Calls
import BleHidUart.Firmware.Timeouts
import BleHidUart.Firmware.Main
import BleHidUart.Firmware.Traffic
import BleHidUart.Firmware.Parsed
import BleHidUart.Firmware.Silence
import BleHidUart.Firmware.Lamps
import BleHidUart.Firmware.AppStream
import BleHidUart.Firmware.OtaDevice
import BleHidUart.Firmware.Shipping
import BleHidUart.Firmware.Update
import BleHidUart.Firmware.Answers
import BleHidUart.Firmware.Serving
import BleHidUart.Firmware.Link
import BleHidUart.Firmware.Commands
